import Mathlib.Data.List.Pairwise
import Splice.Proofs.Emulation.Visits
import Splice.Proofs.Weaving.Sequence

/-!
# Resumption

An `endfinally` goes on from the visit by which its handler was last entered, as long as no handler
is abandoned for the rest of a handler around it. The invariant relates the visits that wait to the
handlers around the position: they begin with the last visits of these handlers, the innermost
first. Behind them may stand visits whose handlers were abandoned for code in no handler at all.

An abandoned visit is never dropped. Where a handler around it goes on, its `endfinally` therefore
resumes the abandoned visit.
-/

namespace Splice

variable {σ : Type} {routine : Routine} {host : Host σ} {regions : List Region}
variable {isInstance : Value → TypeExpr → Bool} {frame next before : Frame} {world between : σ}
variable {region : Region} {position : Nat} {range : Range} {ranges rest : List Range}
variable {visits waiting : List Visit} {visit : Visit} {visit? : Option Visit} {record : Record}
variable {transfer : Resumption} {passage : Passage} {arguments : List Value} {body : Body}
variable {id : InstrId} {instruction : Instruction} {op : Op}

/-! ## Handlers around a position -/

namespace Range

theorem contains_iff :
    range.contains position ↔ range.start ≤ position ∧ position < range.stop := by
  simp [contains]

theorem isWithin_iff {inside around : Range} :
    inside.isWithin around ↔ around.start ≤ inside.start ∧ inside.stop ≤ around.stop := by
  simp [isWithin]

theorem isWithin_refl (range : Range) : range.isWithin range := by simp [isWithin_iff]

theorem isWithin_antisymm {left right : Range} (within : left.isWithin right)
    (around : right.isWithin left) : left = right := by
  obtain ⟨leftStart, leftStop⟩ := left
  obtain ⟨rightStart, rightStop⟩ := right
  simp only [isWithin_iff] at within around
  rw [Range.mk.injEq]
  omega

theorem contains_of_isWithin {inside around : Range} (within : inside.isWithin around)
    (contains : inside.contains position) : around.contains position := by
  rw [isWithin_iff] at within
  rw [contains_iff] at contains ⊢
  omega

/-- Of two ranges that nest around a position, one lies within the other. -/
theorem isWithin_or_isWithin {left right : Range} (nests : left.nests right)
    (inLeft : left.contains position) (inRight : right.contains position) :
    left.isWithin right ∨ right.isWithin left := by
  simp only [Range.nests, isDisjoint, Bool.or_eq_true, decide_eq_true_eq] at nests
  rw [contains_iff] at inLeft inRight
  rcases nests with (apart | around) | within
  · omega
  · exact .inr around
  · exact .inl within

end Range

namespace Region

/-- The region's handler is the innermost finally handler around the position. -/
structure IsInnermostAt (region : Region) (regions : List Region) (position : Nat) : Prop where
  listed : region ∈ regions
  notCatch : region.clause.isCatch = false
  around : region.handler.contains position
  innermost : ∀ other ∈ regions, other.clause.isCatch = false → other.handler.contains position →
    region.handler.isWithin other.handler

/-- The region is one of those with a finally handler, which does not hold the range. -/
structure IsClearOf (region : Region) (regions : List Region) (range : Range) : Prop where
  listed : region ∈ regions
  notCatch : region.clause.isCatch = false
  clear : ¬ range.isWithin region.handler

/-- No finally handler lies within another one. -/
def FinallyApart (regions : List Region) : Prop :=
  ∀ inner ∈ regions, inner.clause.isCatch = false → ∀ outer ∈ regions,
    outer.clause.isCatch = false → inner.handler.isWithin outer.handler →
      inner.handler = outer.handler

/-- A region that protects a position in the range is clear of it. -/
theorem isClearOf_of_guarded (sound : region.IsSound) (listed : region ∈ regions)
    (notCatch : region.clause.isCatch = false) (guarded : region.guarded.contains position)
    (inside : range.contains position) : region.IsClearOf regions range := by
  refine ⟨listed, notCatch, ?_⟩
  intro within
  have handled := Range.contains_of_isWithin within inside
  have apart := sound.apart
  simp only [Range.isDisjoint, Bool.or_eq_true, decide_eq_true_eq] at apart
  rw [Range.contains_iff] at guarded handled
  omega

end Region

theorem mem_running_iff :
    range ∈ running regions position ↔ ∃ region ∈ regions, region.clause.isCatch = false ∧
      region.handler.contains position ∧ region.handler = range := by
  simp [running, and_assoc]

theorem contains_of_mem_running (around : range ∈ running regions position) :
    range.contains position := by
  obtain ⟨region, _, _, contains, rfl⟩ := mem_running_iff.mp around
  exact contains

theorem Body.WellFormed.nests_handlers (wellFormed : body.WellFormed regions) {left right : Region}
    (leftListed : left ∈ regions) (rightListed : right ∈ regions) :
    left.handler.nests right.handler := by
  have symmetric : Std.Symm Region.Nests := by
    constructor
    intro left right nests inner innerMember outer outerMember
    have around := nests outer outerMember inner innerMember
    simp only [Range.nests, Range.isDisjoint, Bool.or_eq_true] at around ⊢
    tauto
  by_cases same : left = right
  · simp [same, Range.nests, Range.isWithin_refl]
  · apply wellFormed.nested.forall leftListed rightListed same
    · exact List.mem_cons_of_mem _ List.mem_cons_self
    · exact List.mem_cons_of_mem _ List.mem_cons_self

/-- Where no finally handler lies within another one, there is one at most around a position. -/
theorem running_unique (wellFormed : body.WellFormed regions) (apart : Region.FinallyApart regions)
    {left right : Range} (leftRuns : left ∈ running regions position)
    (rightRuns : right ∈ running regions position) : left = right := by
  obtain ⟨first, firstListed, firstFinally, inFirst, rfl⟩ := mem_running_iff.mp leftRuns
  obtain ⟨second, secondListed, secondFinally, inSecond, rfl⟩ := mem_running_iff.mp rightRuns
  have nests := wellFormed.nests_handlers firstListed secondListed
  rcases Range.isWithin_or_isWithin nests inFirst inSecond with within | around
  · exact apart first firstListed firstFinally second secondListed secondFinally within
  · exact (apart second secondListed secondFinally first firstListed firstFinally around).symm

/-- Where a handler starts that is clear of another one around it, it is the inner one. -/
theorem Region.IsClearOf.inner (clear : region.IsClearOf regions range)
    (wellFormed : body.WellFormed regions)
    (around : range ∈ running regions region.handler.start) :
    region.handler ∈ running regions region.handler.start ∧ region.handler ≠ range ∧
      region.handler.isWithin range := by
  obtain ⟨listed, notCatch, notWithin⟩ := clear
  have starts : region.handler.contains region.handler.start :=
    Range.contains_iff.mpr ⟨Nat.le_refl _, (wellFormed.sound region listed).handler⟩
  refine ⟨mem_running_iff.mpr ⟨region, listed, notCatch, starts, rfl⟩, ?_, ?_⟩
  · rintro rfl
    exact notWithin (Range.isWithin_refl _)
  · obtain ⟨other, otherListed, _, contains, rfl⟩ := mem_running_iff.mp around
    have nests := wellFormed.nests_handlers listed otherListed
    exact (Range.isWithin_or_isWithin nests starts contains).resolve_right notWithin

/-! ## The visits that wait -/

/-- The transfer visits no handler that holds one of the ranges. -/
def Resumption.IsClearOf (transfer : Resumption) (regions : List Region) (ranges : List Range) :
    Prop :=
  ∀ range ∈ ranges, ∀ region, transfer.MayVisit regions region → region.IsClearOf regions range

/-- The visits that wait begin with the last visits of the ranges, the innermost first. What is to
follow each of them visits no handler that holds a range further out. -/
inductive Covers (regions : List Region) (visits : List Visit) :
    List Visit → List Range → Prop where
  | none (waiting : List Visit) : Covers regions visits waiting []
  | inner {visit : Visit} {waiting : List Visit} {ranges rest : List Range} :
      Covers regions visits waiting rest →
      (∀ range, range ∈ ranges ↔ range = visit.region.handler ∨ range ∈ rest) →
      visits.find? (·.region.handler = visit.region.handler) = some visit →
      visit.region.handler ∉ rest → (∀ range ∈ rest, visit.region.handler.isWithin range) →
      visit.resumption.IsClearOf regions rest →
      Covers regions visits (visit :: waiting) ranges

namespace Covers

theorem congr {others : List Range} (covers : Covers regions visits waiting ranges)
    (same : ∀ range, range ∈ others ↔ range ∈ ranges) : Covers regions visits waiting others := by
  cases covers with
  | none =>
      have empty : others = [] := List.eq_nil_iff_forall_not_mem.mpr fun range member =>
        List.not_mem_nil ((same range).mp member)
      rw [empty]
      exact .none waiting
  | inner covers split last fresh within clear =>
      exact .inner covers (fun range => (same range).trans (split range)) last fresh within clear

/-- A visit of another handler does not change which visits of the ranges are the last. -/
theorem cons_visits (covers : Covers regions visits waiting ranges)
    (fresh : visit.region.handler ∉ ranges) :
    Covers regions (visit :: visits) waiting ranges := by
  induction covers with
  | none waiting => exact .none waiting
  | @inner visited waiting ranges rest _ split last apart within clear ih =>
      have other : visit.region.handler ≠ visited.region.handler := by
        intro same
        exact fresh ((split _).mpr (.inl same))
      refine .inner (ih ?_) split ?_ apart within clear
      · intro member
        exact fresh ((split _).mpr (.inr member))
      · rw [List.find?_cons_of_neg (by simpa using other), last]

/-- An instruction that makes no visit goes on among the same handlers or leaves them all. -/
theorem stay (covers : Covers regions visits waiting passage.before)
    (byVisit : passage.EntersByVisit) (keeps : passage.Keeps) (unvisited : passage.visited = []) :
    Covers regions visits waiting passage.after := by
  rw [Passage.EntersByVisit, unvisited, List.append_nil] at byVisit
  rw [Passage.Keeps, unvisited] at keeps
  rcases keeps with all | nothing
  · exact covers.congr fun range => ⟨fun member => byVisit member, fun member => all member⟩
  · rw [List.subset_nil.mp nothing]
    exact .none waiting

/-- Where the last visit's handler is the only one around, it is the one to end next. -/
theorem alone (visits waiting : List Visit) (outside : ranges ⊆ [visit.region.handler]) :
    Covers regions (visit :: visits) (visit :: waiting) ranges := by
  by_cases inside : visit.region.handler ∈ ranges
  · refine .inner (.none waiting) ?_ (List.find?_cons_of_pos (by simp)) List.not_mem_nil nofun nofun
    intro range
    constructor
    · intro member
      exact .inl (List.mem_singleton.mp (outside member))
    · rintro (rfl | member)
      · exact inside
      · cases member
  · have empty : ranges = [] := by
      apply List.eq_nil_iff_forall_not_mem.mpr
      intro range member
      rw [List.mem_singleton.mp (outside member)] at member
      exact inside member
    rw [empty]
    exact .none _

/-- A visit puts its handler inside of those that go on, or none goes on. -/
theorem enter (wellFormed : body.WellFormed regions)
    (covers : Covers regions visits waiting passage.before)
    (clear : transfer.IsClearOf regions passage.before)
    (visited : transfer.visit? regions isInstance = some visit)
    (byVisit : passage.EntersByVisit) (keeps : passage.Keeps)
    (after : passage.after = running regions visit.region.handler.start)
    (entered : passage.visited = [visit.region.handler]) :
    Covers regions (visit :: visits) (visit :: waiting) passage.after := by
  obtain ⟨may, mayThen⟩ := Resumption.mayVisit_of_visit? visited
  rw [Passage.EntersByVisit, entered] at byVisit
  rw [Passage.Keeps, entered] at keeps
  by_cases outside : passage.after ⊆ [visit.region.handler]
  · exact alone visits waiting outside
  · have all : passage.before ⊆ passage.after := keeps.resolve_right outside
    have inner : ∀ range ∈ passage.before, visit.region.handler ∈ passage.after ∧
        visit.region.handler ≠ range ∧ visit.region.handler.isWithin range := by
      intro range member
      have around := all member
      rw [after] at around ⊢
      exact (clear range member visit.region may).inner wellFormed around
    have split : ∀ range ∈ passage.after,
        range = visit.region.handler ∨ range ∈ passage.before := by
      intro range member
      rcases List.mem_append.mp (byVisit member) with older | newest
      · exact .inr older
      · exact .inl (List.mem_singleton.mp newest)
    have runs : visit.region.handler ∈ passage.after := by
      have further : ∃ range ∈ passage.after, range ≠ visit.region.handler := by
        simpa [List.subset_def] using outside
      obtain ⟨range, member, other⟩ := further
      exact (inner range ((split range member).resolve_left other)).1
    have fresh : visit.region.handler ∉ passage.before := by
      intro member
      exact (inner _ member).2.1 rfl
    refine .inner (covers.cons_visits fresh) ?_ (List.find?_cons_of_pos (by simp)) fresh ?_ ?_
    · intro range
      refine ⟨split range, ?_⟩
      rintro (rfl | member)
      · exact runs
      · exact all member
    · intro range member
      exact (inner range member).2.2
    · intro range member region later
      exact clear range member region (mayThen region later)

/-- The end of the innermost handler drops the visit that entered it, whose rest is clear of the
handlers further out. -/
theorem leave (covers : Covers regions visits waiting ranges) :
    Covers regions visits waiting.tail (outer ranges) ∧
      ∀ visit, waiting.head? = some visit → visit.resumption.IsClearOf regions (outer ranges) := by
  cases covers with
  | none => exact ⟨.none _, fun _ _ => nofun⟩
  | @inner visit waiting ranges rest covers split last fresh within clear =>
      have same : ∀ range, range ∈ outer ranges ↔ range ∈ rest := by
        intro range
        have further : range ∈ rest → ¬ range.isWithin visit.region.handler := by
          intro member holds
          rw [Range.isWithin_antisymm holds (within range member)] at member
          exact fresh member
        have innermost : ∀ other ∈ ranges, visit.region.handler.isWithin other := by
          intro other member
          rcases (split other).mp member with rfl | member
          · exact Range.isWithin_refl _
          · exact within other member
        simp only [outer, List.mem_filter, Bool.not_eq_eq_eq_not, Bool.not_true,
          List.all_eq_false]
        constructor
        · rintro ⟨member, other, otherMember, notWithin⟩
          refine ((split range).mp member).resolve_left ?_
          rintro rfl
          exact notWithin (innermost other otherMember)
        · intro member
          exact ⟨(split range).mpr (.inr member), _, (split _).mpr (.inl rfl), further member⟩
      refine ⟨covers.congr same, ?_⟩
      rintro _ ⟨⟩ range member
      exact clear range ((same range).mp member)

/-- A transfer that is clear of the handlers that go on makes its next visit among them. -/
theorem carryOn (wellFormed : body.WellFormed regions)
    (covers : Covers regions visits waiting passage.before)
    (clear : transfer.IsClearOf regions passage.before)
    (carried : before.carryOn regions isInstance transfer = .goOn next)
    (byVisit : passage.EntersByVisit) (keeps : passage.Keeps)
    (after : passage.after = running regions next.position)
    (visited : passage.visited =
      (transfer.visit? regions isInstance).toList.map (·.region.handler)) :
    Covers regions ((transfer.visit? regions isInstance).toList ++ visits)
      ((transfer.visit? regions isInstance).toList ++ waiting) passage.after := by
  cases visits : transfer.visit? regions isInstance with
  | none =>
      rw [visits] at visited
      exact covers.stay byVisit keeps visited
  | some visit =>
      rw [visits] at visited
      rw [(carryOn_visit carried visits).1] at after
      exact covers.enter wellFormed clear visits byVisit keeps after visited

/-- The innermost handler around a position was last entered by the first visit that waits. -/
theorem last_visit (covers : Covers regions visits waiting (running regions position))
    (innermost : region.IsInnermostAt regions position) :
    ∃ visit, waiting.head? = some visit ∧
      visits.find? (·.region.handler = region.handler) = some visit := by
  have runs : region.handler ∈ running regions position :=
    mem_running_iff.mpr ⟨region, innermost.listed, innermost.notCatch, innermost.around, rfl⟩
  generalize around : running regions position = ranges at covers runs
  cases covers with
  | none => cases runs
  | @inner visit waiting ranges rest covers split last fresh within clear =>
      have entered : visit.region.handler ∈ running regions position := by
        rw [around]
        exact (split _).mpr (.inl rfl)
      obtain ⟨other, listed, notCatch, contains, same⟩ := mem_running_iff.mp entered
      have inside : region.handler.isWithin visit.region.handler := by
        rw [← same]
        exact innermost.innermost other listed notCatch contains
      have equal : visit.region.handler = region.handler := by
        rcases (split _).mp runs with equal | further
        · exact equal.symm
        · exact Range.isWithin_antisymm (within _ further) inside
      rw [equal] at last
      exact ⟨visit, rfl, last⟩

end Covers

/-! ## The invariant along a run -/

/-- What the record has to do with the frame. -/
structure Record.Tracks (record : Record) (regions : List Region) (frame : Frame) : Prop where
  pending : frame.pending = record.waiting.map (·.resumption)
  covers : Covers regions record.visits record.waiting (running regions frame.position)
  accounted : record.visits.Perm (record.resumed ++ record.waiting)

/-- A transfer that starts at a position is clear of the handlers around it. -/
theorem Resumption.isClearOf_of_startsAt (wellFormed : body.WellFormed regions)
    (starts : transfer.StartsAt regions position) :
    transfer.IsClearOf regions (running regions position) := by
  intro range around region may
  have inside := contains_of_mem_running around
  cases transfer with
  | leave rest target =>
      rw [StartsAt] at starts
      rw [MayVisit, starts, List.mem_filter] at may
      obtain ⟨listed, isLeft⟩ := may
      simp only [Region.isLeft, Bool.and_eq_true, Bool.not_eq_eq_eq_not, Bool.not_true] at isLeft
      obtain ⟨⟨notCatch, guarded⟩, _⟩ := isLeft
      exact Region.isClearOf_of_guarded (wellFormed.sound region listed) listed notCatch guarded
        inside
  | unwind exception origin next =>
      obtain ⟨rfl, _⟩ := starts
      obtain ⟨listed, notCatch, guarded⟩ := may
      exact Region.isClearOf_of_guarded (wellFormed.sound region listed) listed notCatch guarded
        inside

theorem Record.accounted_follow (accounted : record.visits.Perm (record.resumed ++ record.waiting))
    (op : Op) (source target : Nat) (visit? : Option Visit) :
    (record.follow regions op source target visit?).visits.Perm
      ((record.follow regions op source target visit?).resumed ++
        (record.follow regions op source target visit?).waiting) := by
  rw [List.perm_iff_count] at accounted ⊢
  intro visit
  have counted := accounted visit
  have halves : record.waiting.count visit =
      (record.waiting.take 1).count visit + record.waiting.tail.count visit := by
    rw [← List.count_append, ← List.drop_one, List.take_append_drop]
  simp only [follow, List.count_append] at counted ⊢
  split
  · simp only [List.count_append]
    omega
  · omega

namespace Record.Tracks

/-- The invariant holds at the start, outside all handlers. -/
theorem start
    (byVisit : ∀ passage ∈ (Record.start routine.regions 0).passages, passage.EntersByVisit) :
    (Record.start routine.regions 0).Tracks routine.regions (routine.start arguments) := by
  refine ⟨rfl, ?_, .refl []⟩
  have outside := byVisit _ List.mem_cons_self
  have empty : running routine.regions 0 = [] := List.subset_nil.mp outside
  rw [Routine.start, empty]
  exact .none []

/-- The invariant goes on with a transfer from what is left once `op` has ended its handler, if it
ends one. -/
theorem carryOn (wellFormed : body.WellFormed regions)
    (pending : before.pending = waiting.map (·.resumption))
    (ends : waiting = if op = .endfinally then record.waiting.tail else record.waiting)
    (covers : Covers regions record.visits waiting
      (Passage.along regions op frame.position next.position visit?).before)
    (clear : transfer.IsClearOf regions
      (Passage.along regions op frame.position next.position visit?).before)
    (carried : before.carryOn regions isInstance transfer = .goOn next)
    (visited : visit? = transfer.visit? regions isInstance)
    (byVisit : (Passage.along regions op frame.position next.position visit?).EntersByVisit)
    (keeps : (Passage.along regions op frame.position next.position visit?).Keeps)
    (accounted : record.visits.Perm (record.resumed ++ record.waiting)) :
    (record.follow regions op frame.position next.position visit?).Tracks regions next := by
  subst ends
  refine ⟨?_, ?_, record.accounted_follow accounted op frame.position next.position visit?⟩
  · rw [Record.follow, List.map_append, ← pending, visited]
    cases visits : transfer.visit? regions isInstance with
    | none => exact carryOn_arrives carried visits
    | some visit => exact (carryOn_visit carried visits).2
  · subst visited
    exact covers.carryOn wellFormed clear carried byVisit keeps rfl rfl

/-- Every instruction preserves the invariant that enters handlers by visits only and abandons
none for the rest of another. -/
theorem follow (tracks : record.Tracks regions frame) (wellFormed : body.WellFormed regions)
    (transfers : Transfers regions isInstance frame op next visit?)
    (byVisit : (Passage.along regions op frame.position next.position visit?).EntersByVisit)
    (keeps : (Passage.along regions op frame.position next.position visit?).Keeps) :
    (record.follow regions op frame.position next.position visit?).Tracks regions next := by
  obtain ⟨pending, covers, accounted⟩ := tracks
  cases transfers with
  | move stays same =>
      have going : (Passage.along regions op frame.position next.position none).before =
          running regions frame.position := if_neg stays
      refine ⟨?_, ?_, record.accounted_follow accounted op frame.position next.position none⟩
      · rw [Record.follow, if_neg stays, same, pending]
        rfl
      · rw [← going] at covers
        rw [Record.follow, if_neg stays]
        exact covers.stay byVisit keeps rfl
  | @start _ _ before transfer stays starts same carried =>
      have going : (Passage.along regions op frame.position next.position
          (transfer.visit? regions isInstance)).before = running regions frame.position :=
        if_neg stays
      refine carryOn wellFormed (same.trans pending) (if_neg stays).symm ?_ ?_ carried rfl byVisit
        keeps accounted
      · rw [going]
        exact covers
      · rw [going]
        exact Resumption.isClearOf_of_startsAt wellFormed starts
  | @resume _ transfer rest waits carried =>
      rw [waits] at pending
      obtain ⟨visit, waiting, waitingEq, rfl, rfl⟩ := List.map_eq_cons_iff.mp pending.symm
      obtain ⟨further, clear⟩ := covers.leave
      rw [waitingEq] at further clear
      exact carryOn wellFormed rfl (by rw [if_pos rfl, waitingEq]) further (clear visit rfl)
        carried rfl byVisit keeps accounted

end Record.Tracks

theorem Recorded.tracks (wellFormed : body.WellFormed routine.regions)
    (recorded : Recorded routine host (routine.start arguments) world record frame between)
    (byVisit : ∀ passage ∈ record.passages, passage.EntersByVisit)
    (keeps : ∀ passage ∈ record.passages, passage.Keeps) :
    record.Tracks routine.regions frame := by
  induction recorded with
  | start => exact .start byVisit
  | step _ _ _ transfers ih =>
      have earlier := ih (fun passage member => byVisit passage (List.mem_cons_of_mem _ member))
        (fun passage member => keeps passage (List.mem_cons_of_mem _ member))
      exact earlier.follow wellFormed transfers (byVisit _ List.mem_cons_self)
        (keeps _ List.mem_cons_self)

theorem Passage.keeps_of_apart {source target : Nat} (wellFormed : body.WellFormed regions)
    (apart : Region.FinallyApart regions)
    (enters : (Passage.along regions op source target visit?).EntersByVisit) :
    (Passage.along regions op source target visit?).Keeps := by
  have going : ∀ range ∈ (Passage.along regions op source target visit?).before,
      range ∈ running regions source := by
    intro range member
    simp only [along] at member
    split at member
    · exact List.mem_of_mem_filter member
    · exact member
  by_cases visited : (Passage.along regions op source target visit?).after ⊆
      (Passage.along regions op source target visit?).visited
  · exact .inr visited
  · have further : ∃ range ∈ (Passage.along regions op source target visit?).after,
        range ∉ (Passage.along regions op source target visit?).visited := by
      simpa [List.subset_def] using visited
    obtain ⟨range, runs, notVisited⟩ := further
    have older := (List.mem_append.mp (enters runs)).resolve_right notVisited
    left
    intro other member
    rw [running_unique wellFormed apart (going other member) (going range older)]
    exact runs

/-- A run cannot abandon a handler for the rest of another one where none lies within another. -/
theorem Recorded.keeps_of_apart {first : Frame} (wellFormed : body.WellFormed routine.regions)
    (apart : Region.FinallyApart routine.regions)
    (recorded : Recorded routine host first world record frame between)
    (byVisit : ∀ passage ∈ record.passages, passage.EntersByVisit) :
    ∀ passage ∈ record.passages, passage.Keeps := by
  induction recorded with
  | start =>
      intro passage member
      rw [List.mem_singleton.mp member]
      exact .inl (List.nil_subset _)
  | step _ _ _ _ ih =>
      have earlier := ih fun passage member => byVisit passage (List.mem_cons_of_mem _ member)
      have now := Passage.keeps_of_apart wellFormed apart (byVisit _ List.mem_cons_self)
      exact List.forall_mem_cons.mpr ⟨now, earlier⟩

/-- An `endfinally` resumes the visit by which its handler, the innermost around it, was last
entered. Every visit of the run either still waits or has been resumed once. This holds of a run
that enters finally handlers by visits only, unless it abandons one for the rest of another. -/
theorem resumes_last_visit (checked : routine.body.check = .ok ())
    (has : routine.body.HasRegions routine.regions)
    (recorded : Recorded routine host (routine.start arguments) world record frame between)
    (byVisit : ∀ passage ∈ record.passages, passage.EntersByVisit)
    (keeps : ∀ passage ∈ record.passages, passage.Keeps)
    (ends : instruction.op = .endfinally)
    (innermost : region.IsInnermostAt routine.regions frame.position) :
    ∃ visit, record.visits.find? (·.region.handler = region.handler) = some visit ∧
      record.waiting.head? = some visit ∧
      routine.step host frame id instruction between =
        (.ok ({ frame with pending := frame.pending.tail }.carryOn routine.regions
          (host.isInstance between) visit.resumption), between) ∧
      record.visits.Perm (record.resumed ++ record.waiting) := by
  obtain ⟨regions, wellFormed⟩ := Body.check_eq_ok_iff.mp checked
  obtain rfl := has.unique wellFormed.hasRegions
  obtain ⟨pending, covers, accounted⟩ := recorded.tracks wellFormed byVisit keeps
  obtain ⟨visit, first, last⟩ := covers.last_visit innermost
  refine ⟨visit, last, first, ?_, accounted⟩
  obtain ⟨waiting, waits⟩ := List.head?_eq_some_iff.mp first
  rw [waits] at pending
  obtain ⟨op, operand⟩ := instruction
  subst ends
  have resumed : routine.step host frame id ⟨.endfinally, operand⟩ between =
      (frame.endFinally routine.regions (host.isInstance between), between) := rfl
  rw [resumed, endFinally_of_pending pending, pending]
  rfl

namespace Sample

/-- A finally handler that runs another one, each left by its own `endfinally`. -/
def nestedFinally : Routine where
  name := "M"
  isVoid := true
  body :=
    { Body.empty.appendAll [.leaveTo ⟨5⟩, .leaveTo ⟨3⟩, ⟨.endfinally, .none⟩, ⟨.nop, .none⟩,
        ⟨.endfinally, .none⟩, ⟨.ret, .none⟩] with
      clauses := [.finishing ⟨1⟩ ⟨2⟩ ⟨3⟩, .finishing ⟨0⟩ ⟨1⟩ ⟨5⟩] }
  regions :=
    [⟨.finishing ⟨1⟩ ⟨2⟩ ⟨3⟩, ⟨1, 2⟩, ⟨2, 3⟩⟩, ⟨.finishing ⟨0⟩ ⟨1⟩ ⟨5⟩, ⟨0, 1⟩, ⟨1, 5⟩⟩]

/-- The finally handler to be run on the way to the return. -/
def aroundSpill : Region := ⟨.finishing ⟨0⟩ ⟨1⟩ ⟨8⟩, ⟨0, 1⟩, ⟨1, 8⟩⟩

/-- A finally handler in which an exception leaves another finally handler and is caught. The
interrupted `leave` would have led to the code that throws. -/
def spill : Routine where
  name := "M"
  isVoid := true
  body :=
    { Body.empty.appendAll [.leaveTo ⟨8⟩, .leaveTo ⟨6⟩, ⟨.ldstr, .string "lost"⟩, ⟨.throw, .none⟩,
        .leaveTo ⟨5⟩, ⟨.endfinally, .none⟩, ⟨.ldstr, .string "skipped"⟩, ⟨.throw, .none⟩,
        ⟨.ret, .none⟩] with
      clauses := [.finishing ⟨1⟩ ⟨2⟩ ⟨4⟩, .guarding ⟨1⟩ ⟨4⟩ ⟨5⟩ (.named "System.Object"),
        aroundSpill.clause] }
  regions :=
    [⟨.finishing ⟨1⟩ ⟨2⟩ ⟨4⟩, ⟨1, 2⟩, ⟨2, 4⟩⟩,
      ⟨.guarding ⟨1⟩ ⟨4⟩ ⟨5⟩ (.named "System.Object"), ⟨1, 4⟩, ⟨4, 5⟩⟩, aroundSpill]

end Sample

/-- The outer handler goes on to its own target after the inner one has gone on to its own. -/
theorem resumes_last_visit_nested :
    ∃ record frame, Recorded Sample.nestedFinally Sample.host (Sample.nestedFinally.start []) 0
        record frame 0 ∧ frame.position = 4 ∧
      ∃ visit, record.visits.find? (·.region.handler = ⟨1, 5⟩) = some visit ∧
        record.waiting.head? = some visit ∧
        Sample.nestedFinally.step Sample.host frame ⟨4⟩ ⟨.endfinally, .none⟩ 0 =
          (.ok ({ frame with pending := frame.pending.tail }.carryOn Sample.nestedFinally.regions
            (Sample.host.isInstance 0) visit.resumption), 0) ∧
        record.visits.Perm (record.resumed ++ record.waiting) := by
  have atStart :
      Recorded Sample.nestedFinally Sample.host (Sample.nestedFinally.start []) 0 _ _ 0 := .start
  have inOuter := atStart.leave (by rfl) (by rfl)
  have inInner := inOuter.leave (by rfl) (by rfl)
  have behindInner := inInner.resume (by rfl) (by rfl) (by rfl)
  have atEnd := behindInner.move (by rfl) (by rfl) (by decide) (by rfl)
  have has : Sample.nestedFinally.body.HasRegions Sample.nestedFinally.regions :=
    Body.mapM_region_eq_ok_iff.mp (by rfl)
  have innermost : Region.IsInnermostAt ⟨.finishing ⟨0⟩ ⟨1⟩ ⟨5⟩, ⟨0, 1⟩, ⟨1, 5⟩⟩
      Sample.nestedFinally.regions 4 := ⟨by decide, by decide, by decide, by decide⟩
  exact ⟨_, _, atEnd, rfl,
    resumes_last_visit (by rfl) has atEnd (by decide) (by decide) rfl innermost⟩

/-- An exception leaves the inner handler and is caught inside the outer one. The visit of the inner
handler still waits when the outer one ends, so the `endfinally` goes on with the `leave` that the
exception has interrupted. -/
theorem resumes_abandoned_visit :
    Sample.spill.body.check = .ok () ∧ Sample.spill.body.HasRegions Sample.spill.regions ∧
      Region.InnerFirst Sample.spill.regions ∧
      ∃ record frame next,
        Recorded Sample.spill Sample.host (Sample.spill.start []) 0 record frame 0 ∧
        (∀ passage ∈ record.passages, passage.EntersByVisit) ∧
        Sample.spill.fetch? frame.position = some (⟨5⟩, ⟨.endfinally, .none⟩) ∧
        Sample.aroundSpill.IsInnermostAt Sample.spill.regions frame.position ∧
        record.visits.find? (·.region.handler = Sample.aroundSpill.handler) =
          some ⟨Sample.aroundSpill, .leave [] 8⟩ ∧
        Sample.spill.step Sample.host frame ⟨5⟩ ⟨.endfinally, .none⟩ 0 = (.ok (.goOn next), 0) ∧
        next.position = 6 := by
  have has : Sample.spill.body.HasRegions Sample.spill.regions :=
    Body.mapM_region_eq_ok_iff.mp (by rfl)
  have innerFirst : Region.InnerFirst Sample.spill.regions := by
    rw [Region.InnerFirst]
    decide
  have atStart : Recorded Sample.spill Sample.host (Sample.spill.start []) 0 _ _ 0 := .start
  have inOuter := atStart.leave (by rfl) (by rfl)
  have inInner := inOuter.leave (by rfl) (by rfl)
  have loaded := inInner.move (by rfl) (by rfl) (by decide) (by rfl)
  have caught := loaded.raise (by rfl) (by rfl) (by decide) (by rfl) (by rfl)
  have behindCatch := caught.leave (by rfl) (by rfl)
  have innermost : Sample.aroundSpill.IsInnermostAt Sample.spill.regions 5 :=
    ⟨by decide, by decide, by decide, by decide⟩
  exact ⟨by rfl, has, innerFirst, _, _, _, behindCatch, by decide, by rfl, innermost, by rfl,
    by rfl, by rfl⟩

end Splice
