import Mathlib.Data.Set.Card
import Mathlib.Logic.Relation
import Splice.Emulation.Recorder

/-!
# Derivation

A recorder knows the bases of finitely many classes, and a type test walks from base to base. The
way from a class either ends at a class without a base or leads into a circle. On a way that ends
every walk has an answer. On a way into a circle only a walk that succeeds has one. A walk with an
answer passes no class twice, and so has passed at most as many classes as there are bases.
-/

namespace Splice.Recorder

variable {recorder : Recorder} {name base ancestor : String} {passed : List String}
variable {answer : Bool} {value : Value} {type : TypeExpr}

/-! ## The way from base to base -/

def HasBase (recorder : Recorder) (name base : String) : Prop :=
  recorder.base? name = some base

/-- The ancestor is reached from the class by any number of steps to a base. -/
def Reaches (recorder : Recorder) : String → String → Prop :=
  Relation.ReflTransGen recorder.HasBase

/-- The way from the class leads to a class that comes up again behind itself. -/
def Circles (recorder : Recorder) (name : String) : Prop :=
  ∃ ancestor, recorder.Reaches name ancestor ∧
    Relation.TransGen recorder.HasBase ancestor ancestor

/-- The last base that a class has been told is the one it has. -/
theorem base?_withBase (recorder : Recorder) (derived base name : String) :
    (recorder.withBase derived base).base? name =
      if name = derived then some base else recorder.base? name := by
  by_cases same : name = derived
  · simp [base?, withBase, same]
  · have different : (name == derived) = false := beq_false_of_ne same
    simp [base?, withBase, List.lookup_cons, different, same]

theorem HasBase.mem_bases (hasBase : recorder.HasBase name base) :
    name ∈ recorder.bases.map Prod.fst := by
  rcases List.lookup_eq_some_iff.mp hasBase with ⟨before, behind, whole, _⟩
  rw [whole]
  simp

theorem HasBase.unique {other : String} (hasBase : recorder.HasBase name base)
    (hasOther : recorder.HasBase name other) : base = other :=
  Option.some.inj (hasBase.symm.trans hasOther)

theorem reaches_iff_of_base (hasBase : recorder.HasBase name base) :
    recorder.Reaches name ancestor ↔ name = ancestor ∨ recorder.Reaches base ancestor := by
  constructor
  · intro reaches
    rcases reaches.cases_head with same | ⟨next, hasNext, reaches⟩
    · exact .inl same
    · rw [hasBase.unique hasNext]
      exact .inr reaches
  · intro reaches
    rcases reaches with same | reaches
    · rw [same]
      exact .refl
    · exact .head hasBase reaches

theorem eq_of_reaches (baseless : recorder.base? name = none)
    (reaches : recorder.Reaches name ancestor) : name = ancestor := by
  rcases reaches.cases_head with same | ⟨next, hasNext, _⟩
  · exact same
  · rw [HasBase, baseless] at hasNext
    cases hasNext

/-! ## Circles -/

theorem circles_iff_of_base (hasBase : recorder.HasBase name base) :
    recorder.Circles name ↔ recorder.Circles base := by
  constructor
  · intro circles
    rcases circles with ⟨ancestor, reaches, circle⟩
    rcases (reaches_iff_of_base hasBase).mp reaches with same | reaches
    · -- The class is on the circle itself, and so is its base.
      subst same
      rcases Relation.TransGen.head'_iff.mp circle with ⟨next, hasNext, back⟩
      rw [hasBase.unique hasNext]
      exact ⟨name, back, circle⟩
    · exact ⟨ancestor, reaches, circle⟩
  · intro circles
    rcases circles with ⟨ancestor, reaches, circle⟩
    exact ⟨ancestor, .head hasBase reaches, circle⟩

theorem Circles.exists_base (circles : recorder.Circles name) :
    ∃ base, recorder.HasBase name base := by
  cases known : recorder.base? name with
  | some base => exact ⟨base, known⟩
  | none =>
      rcases circles with ⟨ancestor, reaches, circle⟩
      rw [← eq_of_reaches known reaches] at circle
      rcases Relation.TransGen.head'_iff.mp circle with ⟨base, hasBase, _⟩
      exact ⟨base, hasBase⟩

/-- The classes with a base on the way from the class. -/
def onward (recorder : Recorder) (name : String) : Set String :=
  { passed | recorder.Reaches name passed ∧ ∃ base, recorder.HasBase passed base }

theorem finite_onward (recorder : Recorder) (name : String) : (recorder.onward name).Finite := by
  apply (recorder.bases.map Prod.fst).finite_toSet.subset
  intro passed onWay
  rcases onWay with ⟨_, base, hasBase⟩
  exact hasBase.mem_bases

/-- Away from circles a step to the base leaves the class behind. -/
theorem ncard_onward_lt (straight : ¬ recorder.Circles name)
    (hasBase : recorder.HasBase name base) :
    (recorder.onward base).ncard < (recorder.onward name).ncard := by
  apply Set.ncard_lt_ncard _ (finite_onward recorder name)
  apply Set.ssubset_iff_exists.mpr
  constructor
  · intro passed onWay
    exact ⟨.head hasBase onWay.1, onWay.2⟩
  · have here : name ∈ recorder.onward name := ⟨.refl, base, hasBase⟩
    have behind : name ∉ recorder.onward base := by
      intro onWay
      exact straight ⟨name, .refl, .head' hasBase onWay.1⟩
    exact ⟨name, here, behind⟩

/-! ## Ancestors -/

/-- The class counts as derived from the ancestor. All classes derive from `System.Object`. -/
def IsA (recorder : Recorder) (name ancestor : String) : Prop :=
  ancestor = objectName ∨ recorder.Reaches name ancestor

/-- A walk to the ancestor stops at the class with success. -/
def StopsAt (ancestor name : String) : Prop :=
  name = ancestor ∨ ancestor = objectName

instance : Decidable (StopsAt ancestor name) :=
  inferInstanceAs (Decidable (name = ancestor ∨ ancestor = objectName))

theorem isA_of_stopsAt (stops : StopsAt ancestor name) : recorder.IsA name ancestor := by
  rcases stops with same | isObject
  · rw [same]
    exact .inr .refl
  · exact .inl isObject

theorem isA_iff_of_base (goesOn : ¬ StopsAt ancestor name) (hasBase : recorder.HasBase name base) :
    recorder.IsA name ancestor ↔ recorder.IsA base ancestor := by
  rw [StopsAt, not_or] at goesOn
  simp only [IsA, reaches_iff_of_base hasBase, goesOn, false_or]

theorem not_isA_of_baseless (goesOn : ¬ StopsAt ancestor name)
    (baseless : recorder.base? name = none) : ¬ recorder.IsA name ancestor := by
  intro isA
  rcases isA with isObject | reaches
  · exact goesOn (.inr isObject)
  · exact goesOn (.inl (eq_of_reaches baseless reaches))

/-! ## Walks -/

/-- The walk from the class passes others on its way to the answer. -/
inductive Arrives (recorder : Recorder) (ancestor : String) : String → List String → Bool → Prop where
  | stops {name : String} : StopsAt ancestor name → Arrives recorder ancestor name [] true
  | ends {name : String} : ¬ StopsAt ancestor name → recorder.base? name = none →
      Arrives recorder ancestor name [] false
  | passes {name base : String} {passed : List String} {answer : Bool} :
      ¬ StopsAt ancestor name → recorder.HasBase name base →
      Arrives recorder ancestor base passed answer →
      Arrives recorder ancestor name (name :: passed) answer

theorem walk_of_stopsAt (stops : StopsAt ancestor name) (classes : Nat) :
    recorder.walk ancestor (classes + 1) name = some true := by
  rw [StopsAt] at stops
  rw [walk, if_pos stops]

theorem walk_of_base (goesOn : ¬ StopsAt ancestor name) (hasBase : recorder.HasBase name base)
    (classes : Nat) :
    recorder.walk ancestor (classes + 1) name = recorder.walk ancestor classes base := by
  rw [StopsAt] at goesOn
  rw [walk, if_neg goesOn, hasBase]

theorem walk_of_baseless (goesOn : ¬ StopsAt ancestor name) (baseless : recorder.base? name = none)
    (classes : Nat) : recorder.walk ancestor (classes + 1) name = some false := by
  rw [StopsAt] at goesOn
  rw [walk, if_neg goesOn, baseless]

/-- A walk has an answer if it looks at more classes than it passes. -/
theorem walk_eq_some_iff {classes : Nat} :
    recorder.walk ancestor classes name = some answer ↔
      ∃ passed, recorder.Arrives ancestor name passed answer ∧ passed.length < classes := by
  constructor
  · intro walked
    induction classes generalizing name with
    | zero => cases walked
    | succ classes ih =>
        by_cases stops : StopsAt ancestor name
        · rw [walk_of_stopsAt stops] at walked
          cases walked
          exact ⟨[], .stops stops, Nat.succ_pos classes⟩
        · cases known : recorder.base? name with
          | none =>
              rw [walk_of_baseless stops known] at walked
              cases walked
              exact ⟨[], .ends stops known, Nat.succ_pos classes⟩
          | some base =>
              rw [walk_of_base stops known] at walked
              rcases ih walked with ⟨passed, arrives, fewer⟩
              exact ⟨name :: passed, .passes stops known arrives, Nat.succ_lt_succ fewer⟩
  · intro walked
    rcases walked with ⟨passed, arrives, fewer⟩
    cases classes with
    | zero => cases fewer
    | succ classes =>
        induction arrives generalizing classes with
        | stops stops => exact walk_of_stopsAt stops classes
        | ends goesOn baseless => exact walk_of_baseless goesOn baseless classes
        | passes goesOn hasBase _ ih =>
            rw [walk_of_base goesOn hasBase]
            cases classes with
            | zero => simp at fewer
            | succ classes => exact ih classes (Nat.lt_of_succ_lt_succ fewer)

namespace Arrives

theorem unique {others : List String} {other : Bool}
    (arrives : recorder.Arrives ancestor name passed answer)
    (again : recorder.Arrives ancestor name others other) : passed = others := by
  induction arrives generalizing others with
  | stops stops =>
      cases again with
      | stops => rfl
      | ends goesOn => exact absurd stops goesOn
      | passes goesOn => exact absurd stops goesOn
  | ends goesOn baseless =>
      cases again with
      | stops stops => exact absurd stops goesOn
      | ends => rfl
      | passes _ hasBase => cases baseless.symm.trans hasBase
  | passes goesOn hasBase _ ih =>
      cases again with
      | stops stops => exact absurd stops goesOn
      | ends _ baseless => cases baseless.symm.trans hasBase
      | passes _ hasOther again =>
          rw [← hasBase.unique hasOther] at again
          rw [ih again]

/-- From a class that is passed the walk goes on over what is left. -/
theorem exists_suffix {class_ : String} (arrives : recorder.Arrives ancestor name passed answer)
    (member : class_ ∈ passed) :
    ∃ left, left <:+ passed ∧ recorder.Arrives ancestor class_ left answer := by
  induction arrives with
  | stops => cases member
  | ends => cases member
  | @passes name base passed answer goesOn hasBase arrives ih =>
      rcases List.mem_cons.mp member with same | member
      · rw [same]
        exact ⟨name :: passed, List.suffix_rfl, .passes goesOn hasBase arrives⟩
      · rcases ih member with ⟨left, isSuffix, arrives⟩
        exact ⟨left, isSuffix.trans (List.suffix_cons name passed), arrives⟩

theorem nodup (arrives : recorder.Arrives ancestor name passed answer) : passed.Nodup := by
  induction arrives with
  | stops => exact .nil
  | ends => exact .nil
  | @passes name base passed answer goesOn hasBase arrives ih =>
      have fresh : name ∉ passed := by
        intro member
        rcases arrives.exists_suffix member with ⟨left, isSuffix, again⟩
        have same := (Arrives.passes goesOn hasBase arrives).unique again
        have shorter := isSuffix.length_le
        rw [← same, List.length_cons] at shorter
        exact absurd shorter (Nat.not_succ_le_self passed.length)
      exact ih.cons fresh

theorem subset_bases (arrives : recorder.Arrives ancestor name passed answer) :
    passed ⊆ recorder.bases.map Prod.fst := by
  induction arrives with
  | stops => exact List.nil_subset _
  | ends => exact List.nil_subset _
  | passes _ hasBase _ ih => exact List.cons_subset.mpr ⟨hasBase.mem_bases, ih⟩

/-- No walk with an answer has passed more classes than there are bases. -/
theorem length_le (arrives : recorder.Arrives ancestor name passed answer) :
    passed.length ≤ recorder.bases.length := by
  have fewer := (List.subperm_of_subset arrives.nodup arrives.subset_bases).length_le
  rwa [List.length_map] at fewer

/-- An answer is right, and a walk that has failed has come to the end of its way. -/
theorem isA_iff (arrives : recorder.Arrives ancestor name passed answer) :
    (answer = true ↔ recorder.IsA name ancestor) ∧
      (answer = false → ¬ recorder.Circles name) := by
  induction arrives with
  | stops stops => exact ⟨iff_of_true rfl (isA_of_stopsAt stops), nofun⟩
  | ends goesOn baseless =>
      constructor
      · exact iff_of_false nofun (not_isA_of_baseless goesOn baseless)
      · intro _ circles
        rcases circles.exists_base with ⟨base, hasBase⟩
        cases baseless.symm.trans hasBase
  | passes goesOn hasBase _ ih =>
      rw [isA_iff_of_base goesOn hasBase, circles_iff_of_base hasBase]
      exact ih

end Arrives

/-- Away from circles every walk arrives, since each step leaves a class behind. -/
theorem exists_arrives_of_not_circles (straight : ¬ recorder.Circles name) (ancestor : String) :
    ∃ passed answer, recorder.Arrives ancestor name passed answer := by
  induction size : (recorder.onward name).ncard using Nat.strong_induction_on generalizing name with
  | _ _ ih =>
      by_cases stops : StopsAt ancestor name
      · exact ⟨[], true, .stops stops⟩
      · cases known : recorder.base? name with
        | none => exact ⟨[], false, .ends stops known⟩
        | some base =>
            have fewer := ncard_onward_lt straight known
            rw [size] at fewer
            rw [circles_iff_of_base known] at straight
            rcases ih _ fewer straight rfl with ⟨passed, answer, arrives⟩
            exact ⟨name :: passed, answer, .passes stops known arrives⟩

/-- A walk to an ancestor arrives on any way. -/
theorem exists_arrives_of_isA (isA : recorder.IsA name ancestor) :
    ∃ passed, recorder.Arrives ancestor name passed true := by
  rcases isA with isObject | reaches
  · exact ⟨[], .stops (.inr isObject)⟩
  · induction reaches using Relation.ReflTransGen.head_induction_on with
    | refl => exact ⟨[], .stops (.inl rfl)⟩
    | @head name base hasBase _ ih =>
        by_cases stops : StopsAt ancestor name
        · exact ⟨[], .stops stops⟩
        · rcases ih with ⟨passed, arrives⟩
          exact ⟨name :: passed, .passes stops hasBase arrives⟩

theorem exists_walk_iff :
    (∃ classes answer, recorder.walk ancestor classes name = some answer) ↔
      recorder.IsA name ancestor ∨ ¬ recorder.Circles name := by
  constructor
  · intro walked
    rcases walked with ⟨classes, answer, walked⟩
    rcases walk_eq_some_iff.mp walked with ⟨passed, arrives, _⟩
    rcases arrives.isA_iff with ⟨told, straight⟩
    cases answer with
    | true => exact .inl (told.mp rfl)
    | false => exact .inr (straight rfl)
  · intro reached
    have arrived : ∃ passed answer, recorder.Arrives ancestor name passed answer := by
      rcases reached with isA | straight
      · rcases exists_arrives_of_isA isA with ⟨passed, arrives⟩
        exact ⟨passed, true, arrives⟩
      · exact exists_arrives_of_not_circles straight ancestor
    rcases arrived with ⟨passed, answer, arrives⟩
    have walked := walk_eq_some_iff.mpr ⟨passed, arrives, Nat.lt_succ_self passed.length⟩
    exact ⟨passed.length + 1, answer, walked⟩

/-- A walk has the answer that it has over one class more than there are bases. -/
theorem walk_bases {classes : Nat} (walked : recorder.walk ancestor classes name = some answer) :
    recorder.walk ancestor (recorder.bases.length + 1) name = some answer := by
  rcases walk_eq_some_iff.mp walked with ⟨passed, arrives, _⟩
  exact walk_eq_some_iff.mpr ⟨passed, arrives, Nat.lt_succ_of_le arrives.length_le⟩

theorem isA_iff_of_walk {classes : Nat}
    (walked : recorder.walk ancestor classes name = some answer) :
    answer = true ↔ recorder.IsA name ancestor := by
  rcases walk_eq_some_iff.mp walked with ⟨passed, arrives, _⟩
  exact arrives.isA_iff.1

/-- From a class that is its own base the walk to another one goes on for ever. -/
theorem walk_of_own_base (own : recorder.HasBase name name) (goesOn : ¬ StopsAt ancestor name)
    (classes : Nat) : recorder.walk ancestor classes name = none := by
  induction classes with
  | zero => rfl
  | succ classes ih =>
      rw [walk_of_base goesOn own]
      exact ih

/-! ## Type tests -/

/-- The value has a class, and this counts as derived from the type. -/
def IsOf (recorder : Recorder) (value : Value) (type : TypeExpr) : Prop :=
  ∃ name, classOf? value = some name ∧ recorder.IsA name type.text

theorem testWithin_of_class (classed : classOf? value = some name) (classes : Nat) :
    recorder.testWithin classes value type = recorder.walk type.text classes name := by
  rw [testWithin, classed]

theorem testWithin_of_classless (classless : classOf? value = none) (classes : Nat) :
    recorder.testWithin classes value type = some false := by
  rw [testWithin, classless]

/-- A type test comes to an end unless the way from the class of the value leads into a circle that
misses the type. A test that ends succeeds with the values that are of the type and with no others,
and it does not have to look at more than one class beyond the number of bases. -/
theorem testWithin_decides :
    ((∃ classes answer, recorder.testWithin classes value type = some answer) ↔
        recorder.IsOf value type ∨
          ∀ name, classOf? value = some name → ¬ recorder.Circles name) ∧
      ∀ classes answer, recorder.testWithin classes value type = some answer →
        (answer = true ↔ recorder.IsOf value type) ∧ recorder.test? value type = some answer := by
  cases classed : classOf? value with
  | none => simp [testWithin_of_classless classed, IsOf, classed, test?]
  | some name =>
      have isOf : recorder.IsOf value type ↔ recorder.IsA name type.text := by
        simp [IsOf, classed]
      simp only [testWithin_of_class classed, isOf, test?, Option.some.injEq, forall_eq']
      constructor
      · exact exists_walk_iff
      · intro classes answer walked
        exact ⟨isA_iff_of_walk walked, walk_bases walked⟩

theorem testWithin_of_own_base :
    ¬ ∃ classes answer, (new.withBase "App.Loop" "App.Loop").testWithin classes
      (.object 1 "App.Loop") (.named "System.Exception") = some answer := by
  intro ended
  rcases ended with ⟨classes, answer, ended⟩
  have own : (new.withBase "App.Loop" "App.Loop").HasBase "App.Loop" "App.Loop" := by
    rw [HasBase, base?_withBase, if_pos rfl]
  have goesOn : ¬ StopsAt (TypeExpr.named "System.Exception").text "App.Loop" := by decide
  rw [testWithin_of_class rfl, walk_of_own_base own goesOn] at ended
  cases ended

end Splice.Recorder
