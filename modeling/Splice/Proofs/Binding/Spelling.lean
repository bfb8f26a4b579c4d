import Splice.Proofs.Binding.Caching

/-!
# Spelling types

A type that is put together from names, generic definitions and modifiers is spelled in two
dialects. They differ in the brackets around arguments and in the mark between a type and one nested
in it. The expression that a module has for the type keeps a definition apart from its arguments; its
text is the metadata spelling, and its key is the run-time one.
-/

namespace Splice

/-- The text has no blanks, and none of the characters that set arguments and modifiers apart. -/
def TypeName.IsUnmarked (text : List Char) : Prop :=
  ∀ character ∈ text,
    character ∉ ['<', '>', '[', ']', ',', '&', '*', '+'] ∧ Text.isBlank character = false

instance : DecidablePred TypeName.IsUnmarked :=
  List.decidableBAll fun character =>
    character ∉ ['<', '>', '[', ']', ',', '&', '*', '+'] ∧ Text.isBlank character = false

/-- A name that is left whole wherever it is written. -/
structure LeafName where
  name : String
  full : name ≠ ""
  unmarked : TypeName.IsUnmarked name.toList

/-- The name of a generic definition announces its arity. -/
structure DefinitionName extends LeafName where
  announced : TypeName.arityMark ∈ name.toList

inductive Modifier where
  | reference
  | pointer
  /-- An array, with a comma less than it has dimensions. -/
  | array (commas : Nat)

/-- A type put together from names, before it is written in a dialect. -/
inductive Spelling where
  | leaf (name : LeafName)
  | applied (definition : DefinitionName) (arguments : List Spelling)
  | modified (element : Spelling) (modifier : Modifier)

inductive Dialect where
  | metadata | runtime

namespace Dialect

def opening : Dialect → Char
  | metadata => '<'
  | runtime => '['

def closing : Dialect → Char
  | metadata => '>'
  | runtime => ']'

/-- What stands between a type and one nested in it. -/
def nesting : Dialect → Char
  | metadata => '/'
  | runtime => '+'

end Dialect

variable {dialect : Dialect} {name : LeafName} {modifier : Modifier} {spelling element : Spelling}
variable {arguments : List Spelling} {definition : DefinitionName}

def LeafName.written (dialect : Dialect) (leaf : LeafName) : List Char :=
  leaf.name.toList.map fun character => if character = '/' then dialect.nesting else character

def Modifier.written : Modifier → List Char
  | reference => ['&']
  | pointer => ['*']
  | array commas => '[' :: List.replicate commas ',' ++ [']']

namespace Spelling

mutual

/-- The type as it is written in a dialect. -/
def written (dialect : Dialect) : Spelling → List Char
  | leaf name => name.written dialect
  | applied definition arguments =>
    definition.written dialect ++
      dialect.opening :: [','].intercalate (writtenAll dialect arguments) ++ [dialect.closing]
  | modified element modifier => element.written dialect ++ modifier.written

def writtenAll (dialect : Dialect) : List Spelling → List (List Char)
  | [] => []
  | spelling :: rest => spelling.written dialect :: writtenAll dialect rest

end

def text (dialect : Dialect) (spelling : Spelling) : String :=
  String.ofList (spelling.written dialect)

mutual

/-- The expression by which a module refers to the type. Modifiers are part of a bare name. -/
def toExpr : Spelling → TypeExpr
  | leaf name => .named name.name
  | applied definition arguments => .applied (.named definition.name) (toExprs arguments)
  | modified element modifier =>
    .named (String.ofList (element.written .metadata ++ modifier.written))

def toExprs : List Spelling → List TypeExpr
  | [] => []
  | spelling :: rest => spelling.toExpr :: toExprs rest

end

/-- No definition is applied to nothing. -/
inductive IsSupplied : Spelling → Prop where
  | leaf (name : LeafName) : IsSupplied (.leaf name)
  | applied {definition : DefinitionName} {arguments : List Spelling} : arguments ≠ [] →
      (∀ argument ∈ arguments, IsSupplied argument) → IsSupplied (.applied definition arguments)
  | modified {element : Spelling} (modifier : Modifier) : IsSupplied element →
      IsSupplied (.modified element modifier)

@[simp] theorem writtenAll_eq_map (spellings : List Spelling) :
    writtenAll dialect spellings = spellings.map (written dialect) := by
  induction spellings with
  | nil => rfl
  | cons spelling rest ih => rw [writtenAll, ih, List.map_cons]

@[simp] theorem toExprs_eq_map (spellings : List Spelling) :
    toExprs spellings = spellings.map toExpr := by
  induction spellings with
  | nil => rfl
  | cons spelling rest ih => rw [toExprs, ih, List.map_cons]

end Spelling

/-! ## From one dialect to the other -/

theorem Modifier.isModifier (modifier : Modifier) : TypeName.IsModifier modifier.written := by
  cases modifier with
  | reference => exact .reference
  | pointer => exact .pointer
  | array commas => exact .array commas

namespace LeafName

theorem written_metadata (name : LeafName) : name.written .metadata = name.name.toList := by
  rw [written, List.map_congr_left (g := id), List.map_id]
  intro character _
  split
  next nests => exact nests.symm
  · rfl

/-- At run time the mark of nested types is the only character that changes. -/
theorem map_runtimeChar_written (name : LeafName) (dialect : Dialect) :
    (name.written dialect).map TypeName.runtimeChar = name.written .runtime := by
  rw [written, written, List.map_map]
  apply List.map_congr_left
  intro character member
  have unmarked := (name.unmarked character member).1
  simp only [List.mem_cons, not_or] at unmarked
  rw [Function.comp_apply]
  split
  · cases dialect <;> rfl
  next unnested => exact TypeName.runtimeChar_of_notMem (by simp [unmarked, unnested])

end LeafName

namespace Spelling

mutual

theorem map_runtimeChar_written (dialect : Dialect) (spelling : Spelling) :
    (spelling.written dialect).map TypeName.runtimeChar = spelling.written .runtime := by
  cases spelling with
  | leaf name => exact name.map_runtimeChar_written dialect
  | applied definition arguments =>
      rw [written, written, List.map_append, List.map_append, List.map_cons,
        TypeName.map_intercalate, definition.map_runtimeChar_written,
        map_runtimeChar_writtenAll dialect arguments]
      cases dialect <;> rfl
  | modified element modifier =>
      rw [written, written, List.map_append, map_runtimeChar_written dialect element,
        modifier.isModifier.map_runtimeChar]

theorem map_runtimeChar_writtenAll (dialect : Dialect) (spellings : List Spelling) :
    (writtenAll dialect spellings).map (·.map TypeName.runtimeChar) =
      writtenAll .runtime spellings := by
  cases spellings with
  | nil => rfl
  | cons spelling rest =>
      rw [writtenAll, List.map_cons, map_runtimeChar_written dialect spelling,
        map_runtimeChar_writtenAll dialect rest, writtenAll]

end

/-- Both spellings have the run-time one as their key. -/
theorem key_named_text (dialect : Dialect) (spelling : Spelling) :
    (TypeExpr.named (spelling.text dialect)).key = spelling.text .runtime := by
  apply String.toList_injective
  rw [TypeExpr.toList_key_named, text, text, String.toList_ofList, String.toList_ofList,
    spelling.map_runtimeChar_written]

mutual

theorem text_toExpr (spelling : Spelling) :
    spelling.toExpr.text = spelling.text .metadata := by
  cases spelling with
  | leaf name =>
      apply String.toList_injective
      rw [text, String.toList_ofList, written, name.written_metadata]
      rfl
  | applied definition arguments =>
      apply String.toList_injective
      rw [text, String.toList_ofList, written, definition.written_metadata, toExpr, toExprs_eq_map,
        TypeExpr.toList_text_applied, texts_toExprs arguments]
      rfl
  | modified element modifier => rfl

theorem texts_toExprs (spellings : List Spelling) :
    (spellings.map toExpr).map (·.text.toList) = writtenAll .metadata spellings := by
  cases spellings with
  | nil => rfl
  | cons spelling rest =>
      rw [List.map_cons, List.map_cons, texts_toExprs rest, text_toExpr spelling, text,
        String.toList_ofList, writtenAll]

end

/-- The text of the expression is the metadata spelling, so its key is the run-time one. -/
theorem key_toExpr (spelling : Spelling) : spelling.toExpr.key = spelling.text .runtime := by
  rw [TypeExpr.key, spelling.text_toExpr, ← spelling.key_named_text .metadata]
  rfl

theorem isRuntime_written (spelling : Spelling) :
    TypeName.IsRuntime (spelling.written .runtime) := by
  have runtime := TypeName.IsRuntime.of_key (.named (spelling.text .runtime))
  rwa [spelling.key_named_text, text, String.toList_ofList] at runtime

theorem key_toExpr_eq (spelling : Spelling) :
    spelling.toExpr.key = (TypeExpr.named (spelling.text .runtime)).key :=
  spelling.key_toExpr.trans (spelling.key_named_text .runtime).symm

end Spelling

/-! ## Taking a spelling apart -/

namespace LeafName

theorem unmarked_written (name : LeafName) :
    ∀ character ∈ name.written .runtime,
      character ∉ ['[', ']', ',', '&', '*'] ∧ Text.isBlank character = false := by
  intro character member
  obtain ⟨original, originalMember, rfl⟩ := List.mem_map.mp member
  split
  · exact ⟨by decide, by decide⟩
  · obtain ⟨unmarked, unblank⟩ := name.unmarked original originalMember
    simp only [List.mem_cons, not_or] at unmarked ⊢
    exact ⟨by simp [unmarked], unblank⟩

end LeafName

namespace DefinitionName

theorem announced_written (definition : DefinitionName) :
    TypeName.arityMark ∈ definition.written .runtime :=
  List.mem_map.mpr ⟨TypeName.arityMark, definition.announced, by decide⟩

theorem unopened_written (definition : DefinitionName) :
    '[' ∉ definition.written .runtime := by
  intro member
  exact (definition.unmarked_written '[' member).1 List.mem_cons_self

end DefinitionName

namespace TypeName

/-- A piece that is neither empty nor has blanks. -/
structure IsWord (text : List Char) : Prop where
  piece : IsPiece text
  blankFree : IsBlankFree text
  full : text ≠ []

variable {text front : List Char} {texts : List (List Char)}

namespace IsWord

theorem isTrimmed (word : IsWord text) : IsTrimmed text where
  first _ found := word.blankFree _ (List.mem_of_mem_head? found)
  last _ found := word.blankFree _ (List.mem_of_mem_getLast? found)

/-- A text without the characters that set arguments apart is a word. -/
theorem of_unmarked (full : text ≠ []) (unmarked : ∀ character ∈ text,
      character ∉ ['[', ']', ','] ∧ Text.isBlank character = false) : IsWord text where
  piece := by
    clear full
    induction text with
    | nil => exact .nil
    | cons character rest ih =>
        obtain ⟨here, others⟩ := List.forall_mem_cons.mp unmarked
        simp only [List.mem_cons, not_or] at here
        exact .pass (.stays here.1.1 here.1.2.1 (.inl here.1.2.2.1)) (ih others)
  blankFree character member := (unmarked character member).2
  full := full

theorem isBlankFree_intercalate (words : ∀ text ∈ texts, IsWord text) :
    IsBlankFree ([','].intercalate texts) := by
  induction texts with
  | nil => exact nofun
  | cons first rest ih =>
      obtain ⟨here, others⟩ := List.forall_mem_cons.mp words
      cases rest with
      | nil =>
          rw [List.intercalate_singleton]
          exact here.blankFree
      | cons second rest =>
          rw [List.intercalate_cons_cons]
          intro character member
          rcases List.mem_append.mp member with front | back
          · rcases List.mem_append.mp front with first | comma
            · exact here.blankFree character first
            · rw [List.mem_singleton.mp comma]
              decide
          · exact ih others character back

/-- A definition with words in brackets behind it is a word. -/
theorem bracketed (word : IsWord front) (nonempty : texts ≠ [])
    (words : ∀ text ∈ texts, IsWord text) :
    IsWord (front ++ '[' :: [','].intercalate texts ++ [']']) where
  piece := word.piece.bracketed nonempty fun text member => (words text member).piece
  blankFree := by
    intro character member
    simp only [List.append_assoc, List.cons_append, List.mem_append, List.mem_cons,
      List.not_mem_nil, or_false] at member
    rcases member with element | rfl | inside | rfl
    · exact word.blankFree character element
    · decide
    · exact isBlankFree_intercalate words character inside
    · decide
  full := by simp

theorem append_modifier {modifier : List Char} (word : IsWord text)
    (isModifier : IsModifier modifier) : IsWord (text ++ modifier) where
  piece := word.piece.append isModifier.isPiece
  blankFree := by
    intro character member
    rcases List.mem_append.mp member with element | added
    · exact word.blankFree character element
    · cases isModifier with
      | reference => rw [List.mem_singleton.mp added]; decide
      | pointer => rw [List.mem_singleton.mp added]; decide
      | array commas =>
          simp only [List.cons_append, List.mem_cons, List.mem_append, List.mem_replicate,
            List.not_mem_nil, or_false] at added
          rcases added with rfl | ⟨_, rfl⟩ | rfl <;> decide
  full := List.append_ne_nil_of_left_ne_nil word.full modifier

end IsWord

end TypeName

theorem LeafName.isWord_written (name : LeafName) :
    TypeName.IsWord (name.written .runtime) := by
  apply TypeName.IsWord.of_unmarked
  · intro empty
    rw [written, List.map_eq_nil_iff, String.toList_eq_nil_iff] at empty
    exact name.full empty
  · intro character member
    obtain ⟨unmarked, unblank⟩ := name.unmarked_written character member
    simp only [List.mem_cons, not_or] at unmarked ⊢
    exact ⟨by simp [unmarked], unblank⟩

namespace Spelling.IsSupplied

/-- A supplied type is written as one word. -/
theorem isWord_written (supplied : spelling.IsSupplied) :
    TypeName.IsWord (spelling.written .runtime) := by
  induction supplied with
  | leaf name => exact name.isWord_written
  | @applied definition arguments nonempty _ words =>
      rw [written, writtenAll_eq_map]
      apply definition.isWord_written.bracketed (by simpa using nonempty)
      intro text member
      obtain ⟨argument, argumentMember, rfl⟩ := List.mem_map.mp member
      exact words argument argumentMember
  | modified modifier _ word => exact word.append_modifier modifier.isModifier

end Spelling.IsSupplied

/-- A supplied application comes apart into its definition and its arguments. -/
theorem Spelling.split_written (definition : DefinitionName) (nonempty : arguments ≠ [])
    (supplied : ∀ argument ∈ arguments, argument.IsSupplied) :
    TypeName.splitModifier ((Spelling.applied definition arguments).written .runtime) = none ∧
      TypeName.splitApplication ((Spelling.applied definition arguments).written .runtime) =
        some (definition.written .runtime, arguments.map (written .runtime)) := by
  rw [written, writtenAll_eq_map]
  apply TypeName.split_bracketed definition.unopened_written definition.announced_written
    (by simpa using nonempty)
  intro text member
  obtain ⟨argument, argumentMember, rfl⟩ := List.mem_map.mp member
  have word := (supplied argument argumentMember).isWord_written
  exact ⟨word.piece, word.isTrimmed, word.full⟩

/-! ## Resolving a spelling -/

namespace TypeExpr

variable {text : List Char}

/-- What is read from a name without blanks has that name as its key, and its shape. -/
theorem key_shape_read (runtime : TypeName.IsRuntime text) (blankFree : TypeName.IsBlankFree text) :
    (TypeName.read id text).key = (named (String.ofList text)).key ∧
      (TypeName.read id text).shape = (named (String.ofList text)).shape := by
  have bare : (named (String.ofList text)).key = String.ofList text := by
    apply String.toList_injective
    rw [toList_key_named, String.toList_ofList, runtime.map_eq_self]
  have written : (TypeName.read id text).key = String.ofList text := by
    apply String.toList_injective
    rw [String.toList_ofList]
    exact TypeName.normal_eq_self runtime blankFree.isTight
  refine ⟨written.trans bare.symm, ?_⟩
  change _ = shapeOfName (named (String.ofList text)).key
  rw [bare]
  cases read : TypeName.read id text with
  | named name =>
      rw [read] at written
      rw [← written]
      rfl
  | applied element arguments =>
      cases split : TypeName.splitModifier text with
      | some parts =>
          rw [TypeName.read_of_modifier split] at read
          cases read
      | none =>
          rw [shapeOfName, String.toList_ofList, split]
          dsimp only
          rw [read]
          rfl

end TypeExpr

namespace Scope

variable {scope : Scope} {strict : Bool} {depth : Nat} {cache : Cache}
variable {expr other : TypeExpr} {exprs others : List TypeExpr}
variable {resolve : TypeExpr → Cache → Cached (Option Descriptor)}

/-- Expressions with one key and one shape resolve alike. -/
theorem resolveWithin_congr (key : expr.key = other.key) (shape : expr.shape = other.shape) :
    scope.resolveWithin strict depth expr cache =
      scope.resolveWithin strict depth other cache := by
  cases depth with
  | zero => rfl
  | succ depth => rw [resolveWithin, resolveWithin, key, shape]

/-- It is enough that the keys are the same and that what the expressions come down to is resolved
alike. -/
theorem resolveWithin_succ_congr (key : expr.key = other.key)
    (parts : scope.resolveParts (scope.resolveWithin strict depth) expr cache =
      scope.resolveParts (scope.resolveWithin strict depth) other cache) :
    scope.resolveWithin strict (depth + 1) expr cache =
      scope.resolveWithin strict (depth + 1) other cache := by
  cases known : cache.lookup other.key with
  | some type =>
      rw [resolveWithin_of_known known]
      rw [← key] at known
      rw [resolveWithin_of_known known]
  | none =>
      rw [resolveWithin_of_unknown known, ← parts, ← key]
      rw [← key] at known
      rw [resolveWithin_of_unknown known]

theorem resolveEach_congr
    (alike : List.Forall₂ (fun expr other => ∀ cache, resolve expr cache = resolve other cache)
      exprs others) : resolveEach resolve exprs cache = resolveEach resolve others cache := by
  induction alike generalizing cache with
  | nil => rfl
  | cons here _ ih => simp only [resolveEach_cons, here, ih]

theorem resolveApplication_congr (elements : ∀ cache, resolve expr cache = resolve other cache)
    (alike : List.Forall₂ (fun expr other => ∀ cache, resolve expr cache = resolve other cache)
      exprs others) :
    resolveApplication resolve expr exprs cache = resolveApplication resolve other others cache := by
  simp only [resolveApplication_eq, elements, resolveEach_congr alike]

/-- A supplied application is read as one of its definition to its arguments. -/
theorem shape_written (nonempty : arguments ≠ [])
    (supplied : ∀ argument ∈ arguments, argument.IsSupplied) :
    (TypeExpr.named ((Spelling.applied definition arguments).text .runtime)).shape =
      .application (.named ((Spelling.leaf definition.toLeafName).text .runtime))
        (arguments.map fun argument => TypeName.read id (argument.written .runtime)) := by
  obtain ⟨unmodified, split⟩ := Spelling.split_written definition nonempty supplied
  have key := (Spelling.applied definition arguments).key_named_text .runtime
  change TypeExpr.shapeOfName
    (TypeExpr.named ((Spelling.applied definition arguments).text .runtime)).key = _
  rw [key, Spelling.text]
  rw [← String.toList_ofList (l := (Spelling.applied definition arguments).written .runtime)]
    at unmodified split
  rw [TypeExpr.shapeOfName_of_application unmodified split, List.map_map]
  rfl

theorem resolveWithin_toExpr_of_named {bare : String} (named : spelling.toExpr = .named bare) :
    scope.resolveWithin strict depth spelling.toExpr cache =
      scope.resolveWithin strict depth (.named (spelling.text .runtime)) cache := by
  have key := spelling.key_toExpr_eq
  apply resolveWithin_congr key
  rw [named] at key ⊢
  exact congrArg TypeExpr.shapeOfName key

/-- Whatever the state, a supplied type resolves by the expression for it as by its name. -/
theorem resolveWithin_toExpr (supplied : spelling.IsSupplied) (depth : Nat) (cache : Cache) :
    scope.resolveWithin strict depth spelling.toExpr cache =
      scope.resolveWithin strict depth (.named (spelling.text .runtime)) cache := by
  induction supplied generalizing depth cache with
  | leaf name => exact resolveWithin_toExpr_of_named rfl
  | modified modifier _ _ => exact resolveWithin_toExpr_of_named rfl
  | @applied definition arguments nonempty supplied ih =>
      cases depth with
      | zero => rfl
      | succ depth =>
          apply resolveWithin_succ_congr (Spelling.key_toExpr_eq _)
          rw [Spelling.toExpr, Spelling.toExprs_eq_map, resolveParts_applied, resolveParts,
            shape_written nonempty supplied]
          apply resolveApplication_congr
          · intro cache
            have bare : (Spelling.leaf definition.toLeafName).toExpr = .named definition.name := rfl
            exact resolveWithin_toExpr_of_named bare
          · rw [List.forall₂_map_left_iff, List.forall₂_map_right_iff, List.forall₂_same]
            intro argument member cache
            have word := (supplied argument member).isWord_written
            obtain ⟨key, shape⟩ :=
              TypeExpr.key_shape_read argument.isRuntime_written word.blankFree
            rw [ih argument member, resolveWithin_congr key shape]
            rfl

end Scope

namespace Binder

/-- A type whose definitions have arguments resolves alike by the expression that keeps them apart
and by its name in either dialect: with the same answer, and leaving the same state. -/
theorem resolve_spelling (binder : Binder) (strict : Bool) (spelling : Spelling)
    (supplied : spelling.IsSupplied) :
    binder.resolve strict (.named (spelling.text .metadata)) =
        binder.resolve strict spelling.toExpr ∧
      binder.resolve strict (.named (spelling.text .runtime)) =
        binder.resolve strict spelling.toExpr := by
  have structural : binder.scope.resolve strict spelling.toExpr binder.cache =
      binder.scope.resolve strict (.named (spelling.text .runtime)) binder.cache :=
    Scope.resolveWithin_toExpr supplied Scope.depthLimit binder.cache
  have key : (TypeExpr.named (spelling.text .metadata)).key =
      (TypeExpr.named (spelling.text .runtime)).key := by
    rw [spelling.key_named_text, spelling.key_named_text]
  have dialects : binder.scope.resolve strict (.named (spelling.text .metadata)) binder.cache =
      binder.scope.resolve strict (.named (spelling.text .runtime)) binder.cache :=
    Scope.resolveWithin_congr key (congrArg TypeExpr.shapeOfName key)
  constructor
  · rw [resolve, resolve, structural, dialects]
  · rw [resolve, resolve, structural]

end Binder

namespace Sample

def stringName : LeafName where
  name := "System.String"
  full := by decide
  unmarked := by decide +kernel

def nullableName : DefinitionName where
  name := "System.Nullable`1"
  full := by decide
  unmarked := by decide +kernel
  announced := by decide +kernel

/-- An application to an array of another one. -/
def nullableArray : Spelling :=
  .applied nullableName [.modified (.applied nullableName [.leaf stringName]) (.array 1)]

end Sample

namespace Binder

theorem resolve_spelling_nullable :
    Sample.nullableArray.IsSupplied ∧
      Sample.nullableArray.text .metadata =
        "System.Nullable`1<System.Nullable`1<System.String>[,]>" ∧
      (Sample.bare.resolve true (.named (Sample.nullableArray.text .metadata)) =
          Sample.bare.resolve true Sample.nullableArray.toExpr ∧
        Sample.bare.resolve true (.named (Sample.nullableArray.text .runtime)) =
          Sample.bare.resolve true Sample.nullableArray.toExpr) ∧
      (Sample.bare.resolve true Sample.nullableArray.toExpr).1.toOption.any Option.isSome =
        true := by
  have inner : (Spelling.applied Sample.nullableName [.leaf Sample.stringName]).IsSupplied :=
    .applied (List.cons_ne_nil _ _) (List.forall_mem_singleton.mpr (.leaf _))
  have supplied : Sample.nullableArray.IsSupplied :=
    .applied (List.cons_ne_nil _ _) (List.forall_mem_singleton.mpr (.modified _ inner))
  exact ⟨supplied, by decide +kernel, resolve_spelling _ true _ supplied, by decide +kernel⟩

/-- A definition that is applied to nothing has the name of an array. As an expression it is refused
for its arity, and by that name the array is found. -/
theorem resolve_spelling_unsupplied :
    let spelling := Spelling.applied Sample.nullableName []
    ofModule Sample.core [] { name := "App" } .new = (.ok Sample.bare, .new) ∧
      (Sample.bare.resolve false spelling.toExpr).1 =
        .error (.arityMismatch "System.Nullable`1" 0) ∧
      ∃ type, (Sample.bare.resolve false (.named (spelling.text .metadata))).1 = .ok (some type) ∧
        type.fullName = "System.Nullable`1[]" := by
  intro spelling
  refine ⟨ofModule_bare, ?_, ?_⟩
  · have refused : (match (Sample.bare.resolve false spelling.toExpr).1 with
        | .error error => decide (error = .arityMismatch "System.Nullable`1" 0)
        | .ok _ => false) = true := by decide +kernel
    split at refused
    next error failed => rw [failed, of_decide_eq_true refused]
    · cases refused
  · have found : (Sample.bare.resolve false (.named (spelling.text .metadata))).1.toOption.any
        (·.any (·.fullName == "System.Nullable`1[]")) = true := by decide +kernel
    obtain ⟨type?, resolved, named⟩ := exists_eq_ok_of_any found
    obtain ⟨type, rfl, named⟩ := (Option.any_eq_true ..).mp named
    exact ⟨type, resolved, beq_iff_eq.mp named⟩

end Binder

end Splice
