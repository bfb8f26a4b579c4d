import Splice.Code.Listing
import Splice.Proofs.Code.Placement
import Splice.Proofs.Success
import Mathlib.Data.List.Induction

/-!
# Labels

What a list of statements describes, told without reading it from the front. A label stands for the
instruction that is emitted right after its last binding, wherever it is used; assembly finds just
that, and fails for no other reason than a label that stands for nothing, too many slots or a body
that does not pass the check.
-/

namespace Splice

namespace Statement

/-- The line that the statement emits. -/
def line? : Statement → Option Line
  | emit instruction => some (.plain instruction)
  | branch op target => some (.branch op target)
  | maxStack _ | initLocals _ | slot _ | label _ | guard .. | finish .. => none

def clause? : Statement → Option LabelledClause
  | guard tryStart handlerStart handlerEnd exception =>
    some ⟨tryStart, handlerStart, handlerEnd, some exception⟩
  | finish tryStart handlerStart handlerEnd => some ⟨tryStart, handlerStart, handlerEnd, none⟩
  | maxStack _ | initLocals _ | slot _ | label _ | emit _ | branch .. => none

def slot? : Statement → Option TypeExpr
  | slot type => some type
  | maxStack _ | initLocals _ | label _ | emit _ | branch .. | guard .. | finish .. => none

def maxStack? : Statement → Option Nat
  | maxStack depth => some depth
  | initLocals _ | slot _ | label _ | emit _ | branch .. | guard .. | finish .. => none

def initLocals? : Statement → Option Bool
  | initLocals init => some init
  | maxStack _ | slot _ | label _ | emit _ | branch .. | guard .. | finish .. => none

/-- The labels that the statement names. -/
def names : Statement → List String
  | branch _ target => [target]
  | guard tryStart handlerStart handlerEnd _ | finish tryStart handlerStart handlerEnd =>
    [tryStart, handlerStart, handlerEnd]
  | maxStack _ | initLocals _ | slot _ | label _ | emit _ => []

/-- The last binding of the label stands behind this many lines. -/
def Binds (statements : List Statement) (name : String) (position : Nat) : Prop :=
  ∃ front back, statements = front ++ .label name :: back ∧ .label name ∉ back ∧
    (front.filterMap line?).length = position

/-- A line follows every binding of a label. -/
def Settled (statements : List Statement) : Prop :=
  ∀ front name back, statements = front ++ .label name :: back → back.filterMap line? ≠ []

structure IsComplete (statements : List Statement) : Prop where
  settled : Settled statements
  bound : ∀ statement ∈ statements, ∀ name ∈ statement.names, .label name ∈ statements
  slots : (statements.filterMap slot?).length ≤ 65536

/-- The label stands for the instruction that the body places where the label is last bound. -/
def StandsFor (statements : List Statement) (body : Body) (name : String) (id : InstrId) : Prop :=
  ∃ position, Binds statements name position ∧ body.order[position]? = some id

inductive Emits (statements : List Statement) (body : Body) : Line → Instruction → Prop where
  | plain (instruction : Instruction) : Emits statements body (.plain instruction) instruction
  | branch (op : Op) {name : String} {target : InstrId}
      (stands : StandsFor statements body name target) :
      Emits statements body (.branch op name) ⟨op, .target target⟩

inductive Declares (statements : List Statement) (body : Body) :
    LabelledClause → Clause → Prop where
  | guard {first middle last : String} {tryStart handlerStart handlerEnd : InstrId}
      (tryStands : StandsFor statements body first tryStart)
      (handlerStands : StandsFor statements body middle handlerStart)
      (endStands : StandsFor statements body last handlerEnd) (exception : TypeExpr) :
      Declares statements body ⟨first, middle, last, some exception⟩
        ⟨0, tryStart, handlerStart, handlerStart, handlerEnd, some exception⟩
  | finish {first middle last : String} {tryStart handlerStart handlerEnd : InstrId}
      (tryStands : StandsFor statements body first tryStart)
      (handlerStands : StandsFor statements body middle handlerStart)
      (endStands : StandsFor statements body last handlerEnd) :
      Declares statements body ⟨first, middle, last, none⟩
        ⟨2, tryStart, handlerStart, handlerStart, handlerEnd, none⟩

/-- The body is the one that the statements list, line by line and clause by clause. -/
structure Describes (statements : List Statement) (body : Body) : Prop where
  order : body.order = (List.range (statements.filterMap line?).length).map InstrId.mk
  size : body.arena.size = (statements.filterMap line?).length
  code : List.Forall₂ (Emits statements body) (statements.filterMap line?)
    (body.instructions.map (·.2))
  slots : body.slots.toList = statements.filterMap slot?
  clauses : List.Forall₂ (Declares statements body) (statements.filterMap clause?) body.clauses
  maxStack : body.maxStack = (statements.filterMap maxStack?).getLast?.getD 8
  initLocals : body.initLocals = (statements.filterMap initLocals?).getLast?.getD true

/-! ## One more statement -/

variable {statements : List Statement} {statement : Statement} {name : String} {position : Nat}

/-- Where a label stands in a list with one more statement. -/
theorem concat_eq_iff {front back : List Statement} :
    statements ++ [statement] = front ++ .label name :: back ↔
      (statement = .label name ∧ front = statements ∧ back = []) ∨
        ∃ rest, statements = front ++ .label name :: rest ∧ back = rest ++ [statement] := by
  constructor
  · intro split
    rcases List.eq_nil_or_concat' back with rfl | ⟨rest, last, rfl⟩
    · obtain ⟨rfl, same⟩ := List.append_inj' split rfl
      exact .inl ⟨(List.cons.inj same).1, rfl, rfl⟩
    · rw [← List.cons_append, ← List.append_assoc] at split
      obtain ⟨rfl, same⟩ := List.append_inj' split rfl
      obtain ⟨rfl, _⟩ := List.cons.inj same
      exact .inr ⟨rest, rfl, rfl⟩
  · rintro (⟨rfl, rfl, rfl⟩ | ⟨rest, rfl, rfl⟩)
    · rfl
    · simp

theorem binds_concat_iff : Binds (statements ++ [statement]) name position ↔
    (statement = .label name ∧ (statements.filterMap line?).length = position) ∨
      (statement ≠ .label name ∧ Binds statements name position) := by
  simp only [Binds, concat_eq_iff]
  constructor
  · rintro ⟨front, back, ⟨rfl, rfl, rfl⟩ | ⟨rest, rfl, rfl⟩, notLater, rfl⟩
    · exact .inl ⟨rfl, rfl⟩
    · rw [List.mem_append, not_or, List.mem_singleton] at notLater
      exact .inr ⟨Ne.symm notLater.2, front, rest, rfl, notLater.1, rfl⟩
  · rintro (⟨rfl, rfl⟩ | ⟨different, front, back, rfl, notLater, rfl⟩)
    · exact ⟨statements, [], .inl ⟨rfl, rfl, rfl⟩, List.not_mem_nil, rfl⟩
    · refine ⟨front, back ++ [statement], .inr ⟨back, rfl, rfl⟩, ?_, rfl⟩
      rw [List.mem_append, not_or, List.mem_singleton]
      exact ⟨notLater, different.symm⟩

theorem settled_concat_iff : Settled (statements ++ [statement]) ↔
    (∀ name, statement ≠ .label name) ∧ (statement.line? = none → Settled statements) := by
  simp only [Settled, concat_eq_iff]
  constructor
  · intro settled
    refine ⟨fun name same => settled statements name [] (.inl ⟨same, rfl, rfl⟩) rfl, ?_⟩
    rintro silent front name rest rfl
    simpa [silent] using settled front name (rest ++ [statement]) (.inr ⟨rest, rfl, rfl⟩)
  · rintro ⟨notLabel, settled⟩ front name back (⟨same, _⟩ | ⟨rest, rfl, rfl⟩)
    · exact absurd same (notLabel name)
    · cases emits : statement.line? with
      | none => simp [settled emits front name rest rfl]
      | some line => simp [emits]

/-- Once every label is settled, each stands in front of a line. -/
theorem Binds.lt_length (binds : Binds statements name position) (settled : Settled statements) :
    position < (statements.filterMap line?).length := by
  obtain ⟨front, back, rfl, _, rfl⟩ := binds
  have follows := List.length_pos_iff.mpr (settled front name back rfl)
  rw [List.filterMap_append, List.length_append, List.filterMap_cons]
  exact Nat.lt_add_of_pos_right follows

theorem exists_binds_iff : (∃ position, Binds statements name position) ↔
    .label name ∈ statements := by
  induction statements using List.reverseRecOn with
  | nil => simp [Binds]
  | append_singleton statements statement ih =>
      simp only [binds_concat_iff, exists_or, exists_and_left, ih, List.mem_append,
        List.mem_singleton, exists_eq', and_true]
      tauto

end Statement

/-! ## Reading -/

namespace Listing

open Statement

variable {listing : Listing} {statements : List Statement} {statement : Statement}
variable {name : String} {position : Nat}

theorem ofStatements_concat (statements : List Statement) (statement : Statement) :
    ofStatements (statements ++ [statement]) = (ofStatements statements).add statement :=
  List.foldl_append ..

/-- What every statement adds its own to is what the statements add, in their order. -/
theorem collect_ofStatements {α : Type} (read : Listing → List α) (item? : Statement → Option α)
    (adds : ∀ listing statement, read (listing.add statement) =
      read listing ++ (item? statement).toList) (statements : List Statement) :
    read (ofStatements statements) = read {} ++ statements.filterMap item? := by
  induction statements using List.reverseRecOn with
  | nil => exact (List.append_nil _).symm
  | append_singleton statements statement ih =>
      rw [ofStatements_concat, adds, ih, List.filterMap_append, List.append_assoc]
      cases item : item? statement <;> simp [item]

/-- What a statement may set anew is what the last such statement says. -/
theorem last_ofStatements {α : Type} (read : Listing → α) (item? : Statement → Option α)
    (sets : ∀ listing statement, read (listing.add statement) =
      (item? statement).getD (read listing)) (statements : List Statement) :
    read (ofStatements statements) = (statements.filterMap item?).getLast?.getD (read {}) := by
  induction statements using List.reverseRecOn with
  | nil => rfl
  | append_singleton statements statement ih =>
      rw [ofStatements_concat, sets, ih, List.filterMap_append]
      cases item : item? statement <;> simp [item]

theorem lines_ofStatements (statements : List Statement) :
    (ofStatements statements).lines.toList = statements.filterMap line? :=
  collect_ofStatements (·.lines.toList) line?
    (fun _ statement => by cases statement <;> simp [add, addLine, line?]) statements

theorem slots_ofStatements (statements : List Statement) :
    (ofStatements statements).slots.toList = statements.filterMap slot? :=
  collect_ofStatements (·.slots.toList) slot?
    (fun _ statement => by cases statement <;> simp [add, addLine, slot?]) statements

theorem clauses_ofStatements (statements : List Statement) :
    (ofStatements statements).clauses.toList = statements.filterMap clause? :=
  collect_ofStatements (·.clauses.toList) clause?
    (fun _ statement => by cases statement <;> simp [add, addLine, clause?]) statements

theorem maxStack_ofStatements (statements : List Statement) :
    (ofStatements statements).maxStack.getD 8 =
      (statements.filterMap maxStack?).getLast?.getD 8 :=
  last_ofStatements (·.maxStack.getD 8) maxStack?
    (fun _ statement => by cases statement <;> simp [add, addLine, maxStack?]) statements

theorem initLocals_ofStatements (statements : List Statement) :
    (ofStatements statements).initLocals =
      (statements.filterMap initLocals?).getLast?.getD true :=
  last_ofStatements (·.initLocals) initLocals?
    (fun _ statement => by cases statement <;> simp [add, addLine, initLocals?]) statements

theorem pending_ofStatements_eq_nil_iff (statements : List Statement) :
    (ofStatements statements).pending = [] ↔ Settled statements := by
  induction statements using List.reverseRecOn with
  | nil => simp [ofStatements, Settled]
  | append_singleton statements statement ih =>
      rw [ofStatements_concat, settled_concat_iff, ← ih]
      cases statement <;> simp [add, addLine, line?]

/-- The position that a label names for now: that of the next line, as long as none has followed. -/
def place? (listing : Listing) (name : String) : Option Nat :=
  if name ∈ listing.pending then some listing.lines.size else listing.labels.lookup name

theorem lookup_map_append (pending : List String) (labels : List (String × Nat)) :
    (pending.map (·, position) ++ labels).lookup name =
      if name ∈ pending then some position else labels.lookup name := by
  induction pending with
  | nil => rfl
  | cons first rest ih =>
      rw [List.map_cons, List.cons_append, List.lookup_cons, ih]
      by_cases same : name = first
      · simp [same]
      · simp [same, beq_false_of_ne same]

theorem place?_addLine (listing : Listing) (line : Line) (name : String) :
    (listing.addLine line).place? name = listing.place? name := by
  simp [place?, addLine, lookup_map_append]

theorem place?_add_label (listing : Listing) (other name : String) :
    (listing.add (.label other)).place? name =
      if name = other then some listing.lines.size else listing.place? name := by
  by_cases same : name = other <;> simp [place?, add, same]

theorem place?_add_of_ne_label (listing : Listing) (notLabel : ∀ name, statement ≠ .label name)
    (name : String) : (listing.add statement).place? name = listing.place? name := by
  cases statement with
  | label other => exact absurd rfl (notLabel other)
  | emit | branch => exact place?_addLine listing _ name
  | maxStack | initLocals | slot | guard | finish => rfl

theorem place?_ofStatements_eq_some_iff :
    (ofStatements statements).place? name = some position ↔ Binds statements name position := by
  induction statements using List.reverseRecOn with
  | nil => simp [ofStatements, place?, Binds]
  | append_singleton statements statement ih =>
      rw [ofStatements_concat, binds_concat_iff, ← ih, ← lines_ofStatements, Array.length_toList]
      by_cases label : ∃ other, statement = .label other
      · obtain ⟨other, rfl⟩ := label
        rw [place?_add_label]
        by_cases same : name = other
        · simp [same]
        · simp [same, Ne.symm same]
      · have notLabel := not_exists.mp label
        rw [place?_add_of_ne_label _ notLabel]
        simp [notLabel]

end Listing

/-! ## Assembling -/

theorem map_fst_numbered (start : Nat) (instructions : List Instruction) :
    (numbered start instructions).map (·.1) =
      (List.range' start instructions.length).map InstrId.mk := by
  induction instructions generalizing start with
  | nil => rfl
  | cons instruction rest ih => simp [numbered, ih, List.range'_succ]

theorem map_snd_numbered (start : Nat) (instructions : List Instruction) :
    (numbered start instructions).map (·.2) = instructions := by
  induction instructions generalizing start with
  | nil => rfl
  | cons instruction rest ih => simp [numbered, ih]

/-- A body that places its whole arena in turn. -/
theorem Body.places_arena {body : Body}
    (order : body.order = (List.range body.arena.size).map InstrId.mk) :
    body.Places (numbered 0 body.arena.toList) where
  order := by rw [order, map_fst_numbered, List.range_eq_range', Array.length_toList]
  stored placed member := by
    obtain ⟨position, found⟩ := List.mem_iff_getElem?.mp member
    rw [getElem?_numbered, Option.map_eq_some_iff] at found
    obtain ⟨instruction, found, rfl⟩ := found
    rw [Array.getElem?_toList] at found
    rw [Body.get?, Nat.zero_add]
    exact found
  nodup := by
    rw [order]
    exact List.nodup_range.map fun _ _ same => congrArg InstrId.index same

namespace Listing

open Statement

variable {listing : Listing} {statements : List Statement} {statement : Statement}
variable {name : String} {body : Body} {id : InstrId} {line : Line} {instruction : Instruction}
variable {labelled : LabelledClause} {clause : Clause}

theorem lookup_eq_some_iff {position : Nat} (settled : Settled statements) :
    (ofStatements statements).labels.lookup name = some position ↔
      Binds statements name position := by
  rw [← place?_ofStatements_eq_some_iff, place?,
    (pending_ofStatements_eq_nil_iff statements).mpr settled, if_neg List.not_mem_nil]

theorem target_eq_ok_iff :
    listing.target name = .ok id ↔ listing.labels.lookup name = some id.index := by
  rw [target]
  cases listing.labels.lookup name with
  | none => simp
  | some position =>
      rw [Except.ok.injEq, Option.some.injEq]
      exact ⟨congrArg InstrId.index, congrArg InstrId.mk⟩

/-- In a settled listing a label stands for the instruction whose id is its position. -/
theorem target_eq_ok_iff_standsFor (settled : Settled statements)
    (order : body.order = (List.range (statements.filterMap line?).length).map InstrId.mk) :
    (ofStatements statements).target name = .ok id ↔ StandsFor statements body name id := by
  rw [target_eq_ok_iff, lookup_eq_some_iff settled, StandsFor, order]
  constructor
  · intro binds
    exact ⟨id.index, binds, by simp [binds.lt_length settled]⟩
  · rintro ⟨position, binds, found⟩
    rw [List.getElem?_map, List.getElem?_range (binds.lt_length settled)] at found
    cases found
    exact binds

theorem instruction_eq_ok_iff (settled : Settled statements)
    (order : body.order = (List.range (statements.filterMap line?).length).map InstrId.mk) :
    (ofStatements statements).instruction line = .ok instruction ↔
      Emits statements body line instruction := by
  cases line with
  | plain given =>
      rw [Listing.instruction, Except.ok.injEq]
      constructor
      · rintro rfl
        exact .plain given
      · rintro ⟨⟩
        rfl
  | branch op name =>
      simp only [Listing.instruction, bind_eq_ok_iff, pure_eq_ok_iff,
        target_eq_ok_iff_standsFor settled order]
      constructor
      · rintro ⟨target, stands, rfl⟩
        exact .branch op stands
      · rintro ⟨⟩
        exact ⟨_, ‹_›, rfl⟩

theorem clause_eq_ok_iff (settled : Settled statements)
    (order : body.order = (List.range (statements.filterMap line?).length).map InstrId.mk) :
    (ofStatements statements).clause labelled = .ok clause ↔
      Declares statements body labelled clause := by
  obtain ⟨first, middle, last, exception⟩ := labelled
  simp only [Listing.clause, bind_eq_ok_iff, target_eq_ok_iff_standsFor settled order]
  constructor
  · rintro ⟨tryStart, tryStands, handlerStart, handlerStands, handlerEnd, endStands, given⟩
    cases exception with
    | some exception =>
        cases given
        exact .guard tryStands handlerStands endStands exception
    | none =>
        cases given
        exact .finish tryStands handlerStands endStands
  · rintro (⟨tryStands, handlerStands, endStands, _⟩ | ⟨tryStands, handlerStands, endStands⟩)
    · exact ⟨_, tryStands, _, handlerStands, _, endStands, rfl⟩
    · exact ⟨_, tryStands, _, handlerStands, _, endStands, rfl⟩

/-- The body of a listing, given its code and its clauses. -/
def bodyOf (listing : Listing) (instructions : List Instruction) (clauses : List Clause) :
    Body where
  arena := instructions.toArray
  order := (List.range instructions.length).map InstrId.mk
  slots := listing.slots
  clauses := clauses
  maxStack := listing.maxStack.getD Body.empty.maxStack
  initLocals := listing.initLocals

/-- The second pass over a listing. -/
structure IsResolved (listing : Listing) (instructions : List Instruction)
    (clauses : List Clause) : Prop where
  instructions : listing.lines.toList.mapM listing.instruction = .ok instructions
  clauses : listing.clauses.toList.mapM listing.clause = .ok clauses

theorem assemble_listing_eq_ok_iff : listing.assemble = .ok body ↔
    listing.pending = [] ∧ listing.slots.size ≤ 65536 ∧ ∃ instructions clauses,
      listing.IsResolved instructions clauses ∧ body = listing.bodyOf instructions clauses ∧
        body.check = .ok () := by
  rw [assemble]
  cases listing.pending with
  | cons name rest => simp
  | nil =>
      by_cases full : Body.slotLimit < listing.slots.size
      · have tooMany : ¬ listing.slots.size ≤ 65536 := Nat.not_le.mpr full
        simp [full, tooMany]
      · simp only [if_neg full, bind_eq_ok_iff, pure_eq_ok_iff]
        constructor
        · rintro ⟨instructions, read, clauses, declared, _, checked, rfl⟩
          exact ⟨trivial, Nat.not_lt.mp full, instructions, clauses, ⟨read, declared⟩, rfl, checked⟩
        · rintro ⟨_, _, instructions, clauses, ⟨read, declared⟩, rfl, checked⟩
          exact ⟨instructions, read, clauses, declared, (), checked, rfl⟩

theorem IsResolved.unique {instructions others : List Instruction} {clauses rest : List Clause}
    (resolved : listing.IsResolved instructions clauses)
    (also : listing.IsResolved others rest) : instructions = others ∧ clauses = rest := by
  obtain ⟨read, declared⟩ := resolved
  rw [also.instructions, Except.ok.injEq] at read
  rw [also.clauses, Except.ok.injEq] at declared
  exact ⟨read.symm, declared.symm⟩

theorem isResolved_of_describes (settled : Settled statements)
    (describes : Describes statements body) :
    (ofStatements statements).IsResolved body.arena.toList body.clauses where
  instructions := by
    have places := Body.places_arena (describes.size ▸ describes.order)
    have code := describes.code
    rw [places.instructions_eq, map_snd_numbered] at code
    rw [mapM_eq_ok_iff, lines_ofStatements]
    simp only [instruction_eq_ok_iff settled describes.order]
    exact code
  clauses := by
    rw [mapM_eq_ok_iff, clauses_ofStatements]
    simp only [clause_eq_ok_iff settled describes.order]
    exact describes.clauses

theorem eq_bodyOf_of_describes (describes : Describes statements body) :
    body = (ofStatements statements).bodyOf body.arena.toList body.clauses := by
  have slots : body.slots = (ofStatements statements).slots := by
    rw [← Array.toList_inj, describes.slots, slots_ofStatements]
  have maxStack : body.maxStack =
      (ofStatements statements).maxStack.getD Body.empty.maxStack := by
    rw [describes.maxStack, ← maxStack_ofStatements, Body.empty]
  have initLocals : body.initLocals = (ofStatements statements).initLocals := by
    rw [describes.initLocals, initLocals_ofStatements]
  rw [bodyOf, Array.toArray_toList, Array.length_toList, describes.size, ← describes.order,
    ← slots, ← maxStack, ← initLocals]

theorem IsResolved.describes {instructions : List Instruction} {clauses : List Clause}
    (settled : Settled statements)
    (resolved : (ofStatements statements).IsResolved instructions clauses) :
    Describes statements ((ofStatements statements).bodyOf instructions clauses) := by
  have read := mapM_eq_ok_iff.mp resolved.instructions
  have declared := mapM_eq_ok_iff.mp resolved.clauses
  have length : instructions.length = (statements.filterMap line?).length := by
    rw [← read.length_eq, lines_ofStatements]
  have order : ((ofStatements statements).bodyOf instructions clauses).order =
      (List.range (statements.filterMap line?).length).map InstrId.mk := by
    rw [bodyOf, length]
  have size : ((ofStatements statements).bodyOf instructions clauses).arena.size =
      (statements.filterMap line?).length := by
    rw [bodyOf, List.size_toArray, length]
  have places := Body.places_arena (size.symm ▸ order)
  simp only [instruction_eq_ok_iff settled order, lines_ofStatements] at read
  simp only [clause_eq_ok_iff settled order, clauses_ofStatements] at declared
  refine ⟨order, size, ?_, slots_ofStatements statements, declared,
    maxStack_ofStatements statements, initLocals_ofStatements statements⟩
  rw [places.instructions_eq, map_snd_numbered]
  exact read

theorem describes_iff (settled : Settled statements) : Describes statements body ↔
    ∃ instructions clauses, (ofStatements statements).IsResolved instructions clauses ∧
      body = (ofStatements statements).bodyOf instructions clauses := by
  constructor
  · intro describes
    exact ⟨_, _, isResolved_of_describes settled describes, eq_bodyOf_of_describes describes⟩
  · rintro ⟨instructions, clauses, resolved, rfl⟩
    exact resolved.describes settled

/-! ## Labels that stand for something -/

theorem exists_target_eq_ok_iff (settled : Settled statements) :
    (∃ id, (ofStatements statements).target name = .ok id) ↔ .label name ∈ statements := by
  rw [← exists_binds_iff]
  simp only [target_eq_ok_iff, lookup_eq_some_iff settled]
  exact ⟨fun ⟨id, binds⟩ => ⟨id.index, binds⟩, fun ⟨position, binds⟩ => ⟨⟨position⟩, binds⟩⟩

theorem forall_names_iff : (∀ name ∈ statement.names, ∃ id, listing.target name = .ok id) ↔
    (∀ line, statement.line? = some line → ∃ instruction, listing.instruction line =
        .ok instruction) ∧
      ∀ labelled, statement.clause? = some labelled → ∃ clause, listing.clause labelled =
        .ok clause := by
  cases statement with
  | maxStack | initLocals | slot | label => simp [names, line?, clause?]
  | emit instruction => simp [names, line?, clause?, Listing.instruction]
  | branch op target => cases found : listing.target target <;>
      simp [names, line?, clause?, Listing.instruction, found]
  | guard | finish => simp [names, line?, clause?, Listing.clause]

theorem exists_isResolved_iff_forall :
    (∃ instructions clauses, listing.IsResolved instructions clauses) ↔
      (∀ line ∈ listing.lines.toList, ∃ instruction, listing.instruction line =
          .ok instruction) ∧
        ∀ labelled ∈ listing.clauses.toList, ∃ clause, listing.clause labelled = .ok clause := by
  rw [← exists_mapM_eq_ok_iff, ← exists_mapM_eq_ok_iff]
  constructor
  · rintro ⟨instructions, clauses, resolved⟩
    exact ⟨⟨instructions, resolved.instructions⟩, clauses, resolved.clauses⟩
  · rintro ⟨⟨instructions, read⟩, clauses, declared⟩
    exact ⟨instructions, clauses, read, declared⟩

/-- The second pass succeeds just if every label that is named is bound. -/
theorem exists_isResolved_iff (settled : Settled statements) :
    (∃ instructions clauses, (ofStatements statements).IsResolved instructions clauses) ↔
      ∀ statement ∈ statements, ∀ name ∈ statement.names, .label name ∈ statements := by
  simp only [← exists_target_eq_ok_iff settled, forall_names_iff]
  rw [exists_isResolved_iff_forall, lines_ofStatements, clauses_ofStatements]
  simp only [List.mem_filterMap]
  constructor
  · rintro ⟨read, declared⟩ statement member
    exact ⟨fun line emits => read line ⟨statement, member, emits⟩,
      fun labelled declares => declared labelled ⟨statement, member, declares⟩⟩
  · intro each
    refine ⟨?_, ?_⟩
    · rintro line ⟨statement, member, emits⟩
      exact (each statement member).1 line emits
    · rintro labelled ⟨statement, member, declares⟩
      exact (each statement member).2 labelled declares

end Listing

open Statement Listing

/-- Assembly succeeds just if the statements are complete and the one body that they describe passes
the check, and gives that body. -/
theorem assemble_eq_ok_iff_describes (statements : List Statement) :
    (∀ body, assemble statements = .ok body ↔
        IsComplete statements ∧ Describes statements body ∧ body.check = .ok ()) ∧
      (IsComplete statements → ∃! body, Describes statements body) := by
  have slots : (ofStatements statements).slots.size = (statements.filterMap slot?).length := by
    rw [← slots_ofStatements, Array.length_toList]
  constructor
  · intro body
    rw [assemble, assemble_listing_eq_ok_iff, pending_ofStatements_eq_nil_iff, slots]
    constructor
    · rintro ⟨settled, room, instructions, clauses, resolved, same, checked⟩
      have bound := (exists_isResolved_iff settled).mp ⟨instructions, clauses, resolved⟩
      exact ⟨⟨settled, bound, room⟩, (describes_iff settled).mpr
        ⟨instructions, clauses, resolved, same⟩, checked⟩
    · rintro ⟨⟨settled, _, room⟩, describes, checked⟩
      obtain ⟨instructions, clauses, resolved, same⟩ := (describes_iff settled).mp describes
      exact ⟨settled, room, instructions, clauses, resolved, same, checked⟩
  · rintro ⟨settled, bound, _⟩
    obtain ⟨instructions, clauses, resolved⟩ := (exists_isResolved_iff settled).mpr bound
    refine ⟨_, (describes_iff settled).mpr ⟨instructions, clauses, resolved, rfl⟩, ?_⟩
    intro other describes
    obtain ⟨others, rest, also, rfl⟩ := (describes_iff settled).mp describes
    obtain ⟨rfl, rfl⟩ := resolved.unique also
    rfl

end Splice
