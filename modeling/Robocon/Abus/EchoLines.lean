/-
**The echo of a declared struct.**

* `echo_dataTypeText` — the echo of the text of a struct prints the fields one after the other.
* `branchOf_declaration` — the branch of a declaration: an earlier one that its name matches, or
  else the one of its type; `Member.misleading` are the patterns of the earlier ones.
* `value_injective` — a member is known from what it shows of the memory.
* `echo_follows_iff` — when the lines are those that are declared, for every instance and for one.
-/

import Robocon.Abus.Echo

namespace Robocon.Abus

open Lib

/-! ### The text of a struct -/

section Text

/-- What is no character of an identifier is not in one. -/
theorem Identifier.free (name : Identifier) {char : Char} (other : isIdentifierChar char = false) :
    char ∉ name.chars := fun member => by
  rw [List.all_eq_true.mp name.valid char member] at other
  cases other

theorem Member.text_free (member : Member) :
    ' ' ∉ member.text ∧ ';' ∉ member.text := by
  cases member <;> decide

/-- A field has no semicolon but the one that ends it. -/
theorem Field.piece_free (field : Field) : ';' ∉ field.piece := by
  have type := field.type.text_free.2
  have name : ';' ∉ field.name.chars := field.name.free (by decide)
  unfold Field.piece Field.declaration
  split
  · simp [type, name]
  · simp [type, name]

theorem Field.piece_ne_nil (field : Field) : field.piece ≠ [] := by
  unfold Field.piece Field.declaration
  split
  · exact List.cons_ne_nil _ _
  · exact List.append_ne_nil_of_right_ne_nil _ (List.cons_ne_nil _ _)

theorem skipWhitespace_piece (field : Field) : skipWhitespace field.piece = field.declaration := by
  have skipped : skipWhitespace field.declaration = field.declaration := by
    unfold Field.declaration
    cases field.type <;> rfl
  unfold Field.piece
  split
  · exact skipped
  · exact skipped

/-- The first opening brace of a text before which there is none. -/
theorem findStructStart_append {front rest : List Char} (free : '\x7b' ∉ front) :
    findStructStart (front ++ '\x7b' :: rest) = '\x7b' :: rest := by
  have skipped : ∀ char ∈ front, decide (char ≠ '\x7b') = true := fun char member =>
    decide_eq_true fun same => free (same ▸ member)
  rw [findStructStart, if_pos (List.mem_append_right _ List.mem_cons_self),
    List.dropWhile_append_of_pos skipped, List.dropWhile_cons_of_neg (by decide)]

/-- The last closing brace of a text after which there is none. -/
theorem findStructEnd_append {body name : List Char} (free : '\x7d' ∉ name) :
    findStructEnd (body ++ '\x7d' :: name) = body.length + 1 := by
  rw [findStructEnd, if_pos (List.mem_append_right _ List.mem_cons_self), idxOf_reverse free,
    List.length_append, List.length_cons]
  omega

theorem strtok_pieces (fields : List Field) :
    strtok ((fields.map Field.piece).flatMap (fun piece => piece ++ [';']) ++ [' ']) ';' =
      fields.map Field.piece ++ [[' ']] := by
  have free : ∀ piece ∈ fields.map Field.piece, ';' ∉ piece := by
    intro piece member
    obtain ⟨field, -, rfl⟩ := List.mem_map.mp member
    exact field.piece_free
  rw [strtok, splitOn_pieces free (by decide), List.filter_eq_self]
  intro token member
  rcases List.mem_append.mp member with member | member
  · obtain ⟨field, -, rfl⟩ := List.mem_map.mp member
    rw [List.isEmpty_eq_false_iff.mpr field.piece_ne_nil]
    rfl
  · rw [List.mem_singleton.mp member]
    rfl

/-- The echo of a text with one opening and one closing brace. -/
theorem echo_braces (memory : ℕ → UInt8) {front body name : List Char} (front_free : '\x7b' ∉ front)
    (name_free : '\x7d' ∉ name) (buf : ℕ) :
    abusEchoDataByToken memory (front ++ '\x7b' :: (body ++ '\x7d' :: name)) buf =
      some ⟨replaceCharInPlace name ';' ':', printfTokens memory (strtok body ';') buf⟩ := by
  have before : (body ++ '\x7d' :: name).take body.length = body := List.take_left' rfl
  have after : (body ++ '\x7d' :: name).drop (body.length + 1) = name := by
    rw [List.append_cons]
    exact List.drop_left' (List.length_append.trans rfl)
  rw [abusEchoDataByToken, findStructStart_append front_free]
  simp only [findStructEnd_append name_free, Nat.add_one_ne_zero, if_false, Nat.add_sub_cancel,
    before, after]

/-- The name of the struct is printed with a colon for the semicolon behind it. -/
theorem replaceCharInPlace_name (structName : Identifier) :
    replaceCharInPlace (structName.chars ++ [';']) ';' ':' = structName.chars ++ [':'] := by
  have same : structName.chars.map (fun char => if char = ';' then ':' else char) =
      structName.chars := by
    refine (List.map_congr_left fun char member => if_neg ?_).trans (List.map_id _)
    rintro rfl
    exact structName.free (by decide) member
  rw [replaceCharInPlace, List.map_append, same, List.map_singleton, if_pos rfl]

/-- **The echo of the text of a struct** prints its name and then the fields. -/
theorem echo_dataTypeText (memory : ℕ → UInt8) (fields : List Field) (structName : Identifier)
    (buf : ℕ) :
    abusEchoDataByToken memory (dataTypeText fields structName) buf =
      some ⟨structName.chars ++ [':'],
        printfTokens memory (fields.map Field.piece ++ [[' ']]) buf⟩ := by
  have name_free : '\x7d' ∉ structName.chars ++ [';'] := by
    have name : '\x7d' ∉ structName.chars := structName.free (by decide)
    simp [name]
  have front_free : '\x7b' ∉ "typedef struct".toList := by decide
  refine (echo_braces memory front_free name_free buf).trans ?_
  rw [strtok_pieces, replaceCharInPlace_name]

end Text

/-! ### The branch of a declaration -/

section Choice

/-- A pattern with a space in a declaration ends the type and starts the name. -/
theorem infix_declaration_spaced (field : Field) (first second : List Char) :
    first ++ ' ' :: second <:+: field.declaration ↔
      first <:+ field.type.text ∧ second <+: field.name.chars :=
  infix_through_iff field.type.text_free.1 (field.name.free (by decide))

/-- A pattern without a space in a declaration is in the type or in the name. -/
theorem infix_declaration (field : Field) {pattern : List Char} (free : ' ' ∉ pattern) :
    pattern <:+: field.declaration ↔
      pattern <:+: field.type.text ∨ pattern <:+: field.name.chars :=
  infix_around_iff free

/-- The part of a pattern before its first space, and the part after it. -/
theorem spaced_eq {pattern : List Char} (spaced : ' ' ∈ pattern) :
    pattern.takeWhile (· ≠ ' ') ++ ' ' :: (pattern.dropWhile (· ≠ ' ')).tail = pattern := by
  obtain ⟨first, second, rfl, free⟩ := List.eq_append_cons_of_mem spaced
  have passed : ∀ char ∈ first, decide (char ≠ ' ') = true := fun char member =>
    decide_eq_true fun same => free (same ▸ member)
  rw [List.takeWhile_append_of_pos passed, List.dropWhile_append_of_pos passed]
  simp

/-- A type alone makes a branch match. -/
def typeHit (type : Member) (branch : Branch) : Bool :=
  (branch.substrings.take 2).any fun pattern =>
    if ' ' ∈ pattern then decide (pattern.takeWhile (· ≠ ' ') <:+ type.text)
    else decide (pattern <:+: type.text)

/-- The patterns of a branch that a name can contain. -/
def namePatterns (branch : Branch) : List (List Char) :=
  (branch.substrings.take 2).filter fun pattern => ' ' ∉ pattern

/-- A name alone makes a branch match. -/
def nameHit (name : List Char) (branch : Branch) : Bool :=
  (namePatterns branch).any fun pattern => decide (pattern <:+: name)

/-- No pattern asks for more than a space after one of the types. -/
theorem nothing_after_type (type : Member) : ∀ branch ∈ branches,
    ∀ pattern ∈ branch.substrings.take 2, pattern.takeWhile (· ≠ ' ') <:+ type.text →
      ' ' ∈ pattern → (pattern.dropWhile (· ≠ ' ')).tail = [] := by
  cases type <;> decide +kernel

/-- A branch matches a declaration by the type or by the name. -/
theorem findAnySubstring_declaration (field : Field) {branch : Branch}
    (listed : branch ∈ branches) :
    findAnySubstring field.declaration 2 branch.substrings =
      (typeHit field.type branch || nameHit field.name.chars branch) := by
  have each : ∀ pattern ∈ branch.substrings.take 2, (pattern <:+: field.declaration ↔
      (if ' ' ∈ pattern then decide (pattern.takeWhile (· ≠ ' ') <:+ field.type.text)
        else decide (pattern <:+: field.type.text)) = true ∨
      ' ' ∉ pattern ∧ pattern <:+: field.name.chars) := by
    intro pattern member
    by_cases spaced : ' ' ∈ pattern
    · have nothing := nothing_after_type field.type branch listed pattern member
      rw [if_pos spaced, decide_eq_true_iff, ← spaced_eq spaced, infix_declaration_spaced,
        spaced_eq spaced]
      constructor
      · exact fun both => Or.inl both.1
      · rintro (ends | ⟨free, -⟩)
        · exact ⟨ends, nothing ends spaced ▸ List.nil_prefix⟩
        · exact absurd spaced free
    · rw [if_neg spaced, decide_eq_true_iff, infix_declaration field spaced]
      exact or_congr_right (and_iff_right spaced).symm
  rw [Bool.eq_iff_iff, Bool.or_eq_true]
  simp only [findAnySubstring, typeHit, nameHit, namePatterns, List.any_eq_true,
    List.mem_filter, decide_eq_true_iff]
  constructor
  · rintro ⟨pattern, member, found⟩
    rcases (each pattern member).mp found with type | ⟨free, name⟩
    · exact Or.inl ⟨pattern, member, type⟩
    · exact Or.inr ⟨pattern, ⟨member, free⟩, name⟩
  · rintro (⟨pattern, member, type⟩ | ⟨pattern, ⟨member, free⟩, name⟩)
    · exact ⟨pattern, member, (each pattern member).mpr (Or.inl type)⟩
    · exact ⟨pattern, member, (each pattern member).mpr (Or.inr ⟨free, name⟩)⟩

/-- The first entry that passes one of two tests: one before the first that passes the second test,
or else that. -/
theorem find?_or {Entry : Type*} (first second : Entry → Bool) (entries : List Entry) :
    (entries.find? fun entry => first entry || second entry) =
      ((entries.takeWhile fun entry => !first entry).find? second).or (entries.find? first) := by
  induction entries with
  | nil => rfl
  | cons entry entries ih =>
    by_cases one : first entry = true
    · simp [one]
    · by_cases other : second entry = true
      · simp [one, other]
      · simp [one, other, ih]

/-- The branches before the one that the type asks for. -/
def earlier (type : Member) : List Branch := branches.takeWhile fun branch => !typeHit type branch

/-- **The branch of a declaration**: an earlier one that the name matches, or else the one of the
type. -/
theorem branchOf_declaration (field : Field) :
    branchOf field.declaration = ((earlier field.type).find? (nameHit field.name.chars)).or
      (branches.find? (typeHit field.type)) := by
  rw [earlier, ← find?_or, branchOf]
  exact List.find?_congr fun branch member => findAnySubstring_declaration field member

/-- The member that a field is printed as if its name matches nothing. -/
def Member.shownAs : Member → Member
  | .i8 => .u8
  | .i16 => .u16
  | .i64 => .u64
  | .u32 => .i32
  | type => type

/-- The patterns that mislead the echo in the name of a field, by its type. -/
def Member.misleading : Member → List (List Char)
  | .i32 | .u32 | .i16 | .u16 => []
  | .i8 | .u8 => ["short".toList]
  | .i64 | .u64 => ["short".toList, "char".toList]
  | .f32 => ["short".toList, "char".toList, "uint8_t".toList]
  | .f64 => ["short".toList, "char".toList, "uint8_t".toList, "float".toList, "f32".toList]

/-- The name of the field contains a pattern that the echo finds before its type. -/
def Field.Misleads (field : Field) : Prop :=
  ∃ pattern ∈ field.type.misleading, pattern <:+: field.name.chars

instance (field : Field) : Decidable field.Misleads :=
  inferInstanceAs (Decidable (∃ pattern ∈ field.type.misleading, pattern <:+: field.name.chars))

theorem misleading_eq (type : Member) :
    type.misleading = (earlier type).flatMap namePatterns := by
  cases type <;> decide +kernel

theorem typeHit_branch (type : Member) :
    (branches.find? (typeHit type)).map (fun branch => (branch.printed, branch.stored.size)) =
      some (type.shownAs, type.size) := by
  cases type <;> decide +kernel

theorem earlier_branch (type : Member) : ∀ branch ∈ earlier type, branch.printed ≠ type := by
  cases type <;> decide +kernel

theorem Field.misleads_iff (field : Field) :
    field.Misleads ↔ ∃ branch ∈ earlier field.type, nameHit field.name.chars branch = true := by
  simp only [Field.Misleads, misleading_eq, List.mem_flatMap, nameHit, List.any_eq_true,
    decide_eq_true_iff]
  constructor
  · rintro ⟨pattern, ⟨branch, earlier, listed⟩, found⟩
    exact ⟨branch, earlier, pattern, listed, found⟩
  · rintro ⟨branch, earlier, pattern, listed, found⟩
    exact ⟨pattern, ⟨branch, earlier, listed⟩, found⟩

/-- A name that does not mislead leaves the branch to the type. -/
theorem branchOf_type {field : Field} (clear : ¬ field.Misleads) :
    ∃ branch, branchOf field.declaration = some branch ∧
      branch.printed = field.type.shownAs ∧ branch.stored.size = field.type.size := by
  have none_earlier : (earlier field.type).find? (nameHit field.name.chars) = none :=
    List.find?_eq_none.mpr fun branch member hits =>
      clear (field.misleads_iff.mpr ⟨branch, member, hits⟩)
  obtain ⟨branch, found, both⟩ := Option.map_eq_some_iff.mp (typeHit_branch field.type)
  obtain ⟨printed, size⟩ := Prod.mk.inj both
  refine ⟨branch, ?_, printed, size⟩
  rw [branchOf_declaration, none_earlier, Option.none_or, found]

/-- A name that misleads makes the echo print another member. -/
theorem branchOf_misled {field : Field} (misleads : field.Misleads) :
    ∃ branch, branchOf field.declaration = some branch ∧ branch.printed ≠ field.type := by
  obtain ⟨other, member, hits⟩ := field.misleads_iff.mp misleads
  have some_earlier := List.find?_isSome.mpr ⟨other, member, hits⟩
  obtain ⟨branch, found⟩ := Option.isSome_iff_exists.mp some_earlier
  refine ⟨branch, ?_, earlier_branch field.type branch (List.mem_of_find?_eq_some found)⟩
  rw [branchOf_declaration, found, Option.some_or]

/-- The types that are printed as they are declared. -/
theorem shownAs_eq_iff (type : Member) :
    type.shownAs = type ↔ type ∈ [Member.i32, .u16, .u8, .u64, .f32, .f64] := by
  cases type <;> decide

/-- The echo prints a field for its own type exactly if the type is printed as declared and the name
does not mislead. -/
theorem branchOf_eq_iff (field : Field) :
    ∃ branch, branchOf field.declaration = some branch ∧
      (branch.printed = field.type ↔
        field.type ∈ [Member.i32, .u16, .u8, .u64, .f32, .f64] ∧ ¬ field.Misleads) ∧
      (branch.printed = field.type → branch.stored.size = field.type.size) := by
  by_cases misleads : field.Misleads
  · obtain ⟨branch, found, other⟩ := branchOf_misled misleads
    exact ⟨branch, found, iff_of_false other fun both => both.2 misleads,
      fun same => absurd same other⟩
  · obtain ⟨branch, found, printed, size⟩ := branchOf_type misleads
    refine ⟨branch, found, ?_, fun _ => size⟩
    rw [printed, shownAs_eq_iff, and_iff_left misleads]

end Choice

/-! ### The values -/

section Values

/-- What a member shows of equal bytes does not depend on the address. -/
theorem value_const (member : Member) (byte : UInt8) (buf : ℕ) :
    member.value (fun _ => byte) buf = member.value (fun _ => byte) 0 := by
  cases member <;> rfl

/-- **A member is known from what it shows.** -/
theorem value_injective {member other : Member} {buf : ℕ}
    (same : ∀ memory, member.value memory buf = other.value memory buf) : member = other := by
  have ones := same fun _ => 255
  have sevens := same fun _ => 127
  rw [value_const, value_const other] at ones sevens
  revert ones sevens
  cases member <;> cases other <;> decide +kernel

/-- The two readings of some bits agree exactly if the top bit is clear. -/
theorem twosComplement_eq_iff (size bits : ℕ) :
    Shown.int (Member.twosComplement size bits) = .int bits ↔ bits < 2 ^ (8 * size - 1) := by
  rw [Shown.int.injEq, Member.twosComplement]
  split
  · exact iff_of_true rfl ‹_›
  · refine iff_of_false (fun same => ?_) ‹_›
    have power : (2 : ℤ) ^ (8 * size) ≠ 0 := pow_ne_zero _ two_ne_zero
    exact power (sub_eq_self.mp same)

/-- A field that is printed with the other signedness is printed right exactly if its top bit is
clear. -/
theorem value_shownAs_iff (type : Member) (memory : ℕ → UInt8) (buf : ℕ) :
    type.shownAs.value memory buf = type.value memory buf ↔
      (type ∈ [Member.i8, .i16, .i64, .u32] →
        type.bits memory buf < 2 ^ (8 * type.size - 1)) := by
  have signs := twosComplement_eq_iff type.size (type.bits memory buf)
  by_cases changed : type ∈ [Member.i8, .i16, .i64, .u32]
  · rw [← signs]
    refine Iff.trans ?_ (forall_prop_of_true changed).symm
    cases type with
    | i8 | i16 | i64 => exact eq_comm
    | u32 => exact Iff.rfl
    | _ => exact absurd changed (by decide)
  · refine iff_of_true ?_ fun member => absurd member changed
    cases type with
    | i8 | i16 | i64 | u32 => exact absurd (by decide) changed
    | _ => rfl

end Values

/-! ### The lines -/

section Lines

theorem printfTokens_piece (memory : ℕ → UInt8) {field : Field} {branch : Branch}
    (chosen : branchOf field.declaration = some branch) (tokens : List (List Char)) (buf : ℕ) :
    printfTokens memory (field.piece :: tokens) buf =
      lineOf memory field.declaration branch.printed buf ::
        printfTokens memory tokens (buf + branch.stored.size) := by
  simp only [printfTokens, printfData, skipWhitespace_piece, chosen, List.singleton_append]

theorem printfTokens_last (memory : ℕ → UInt8) (buf : ℕ) :
    printfTokens memory [[' ']] buf = [] := by
  have nothing : branchOf (skipWhitespace [' ']) = none := by decide +kernel
  simp only [printfTokens, printfData, nothing, List.append_nil]

theorem offset_succ (field : Field) (fields : List Field) (buf place : ℕ) :
    buf + offset (field :: fields) (place + 1) = buf + field.type.size + offset fields place := by
  rw [offset, List.take_succ_cons, List.map_cons, List.sum_cons, ← add_assoc]
  rfl

theorem declaredLines_cons (memory : ℕ → UInt8) (field : Field) (fields : List Field) (buf : ℕ) :
    declaredLines memory (field :: fields) buf =
      lineOf memory field.declaration field.type buf ::
        declaredLines memory fields (buf + field.type.size) := by
  rw [declaredLines, List.mapIdx_cons]
  simp only [offset_succ]
  rfl

theorem lineOf_eq_iff {memory : ℕ → UInt8} {str : List Char} {member other : Member} {buf : ℕ} :
    lineOf memory str member buf = lineOf memory str other buf ↔
      member.value memory buf = other.value memory buf := by
  rw [lineOf, lineOf, Line.mk.injEq, and_iff_right rfl]

/-- **The lines of every instance** are those that are declared exactly if every type is printed as
declared and no name misleads. -/
theorem lines_always_iff (fields : List Field) : ∀ buf,
    (∀ memory, printfTokens memory (fields.map Field.piece ++ [[' ']]) buf =
        declaredLines memory fields buf) ↔
      ∀ field ∈ fields, field.type ∈ [Member.i32, .u16, .u8, .u64, .f32, .f64] ∧
        ¬ field.Misleads := by
  induction fields with
  | nil =>
    exact fun buf => iff_of_true (fun memory => printfTokens_last memory buf)
      fun field member => absurd member List.not_mem_nil
  | cons field fields ih =>
    intro buf
    obtain ⟨branch, chosen, plain, size⟩ := branchOf_eq_iff field
    rw [List.forall_mem_cons, ← plain, ← ih (buf + field.type.size)]
    simp only [List.map_cons, List.cons_append, printfTokens_piece _ chosen, declaredLines_cons,
      List.cons.injEq, lineOf_eq_iff, forall_and]
    constructor
    · rintro ⟨first, rest⟩
      have same := value_injective first
      rw [size same] at rest
      exact ⟨same, rest⟩
    · rintro ⟨same, rest⟩
      rw [size same, same]
      exact ⟨fun _ => rfl, rest⟩

/-- The top bits are clear of the fields that are printed with the other signedness. -/
def TopBitsClear (memory : ℕ → UInt8) (fields : List Field) (buf : ℕ) : Prop :=
  ∀ place, ∀ field : Field, fields[place]? = some field →
    field.type ∈ [Member.i8, .i16, .i64, .u32] →
    field.type.bits memory (buf + offset fields place) < 2 ^ (8 * field.type.size - 1)

theorem topBitsClear_cons (memory : ℕ → UInt8) (field : Field) (fields : List Field) (buf : ℕ) :
    TopBitsClear memory (field :: fields) buf ↔
      (field.type ∈ [Member.i8, .i16, .i64, .u32] →
        field.type.bits memory buf < 2 ^ (8 * field.type.size - 1)) ∧
      TopBitsClear memory fields (buf + field.type.size) := by
  constructor
  · intro clear
    refine ⟨clear 0 field rfl, fun place other here changed => ?_⟩
    rw [← offset_succ]
    exact clear (place + 1) other here changed
  · rintro ⟨first, rest⟩ place other here changed
    cases place with
    | zero =>
      obtain rfl := Option.some.inj here
      exact first changed
    | succ place =>
      rw [offset_succ]
      exact rest place other here changed

/-- **The lines of one instance**, if no name misleads, are those that are declared exactly if the
top bits are clear of the fields that are printed with the other signedness. -/
theorem lines_iff (memory : ℕ → UInt8) (fields : List Field) : ∀ buf,
    (∀ field ∈ fields, ¬ field.Misleads) →
      (printfTokens memory (fields.map Field.piece ++ [[' ']]) buf =
        declaredLines memory fields buf ↔ TopBitsClear memory fields buf) := by
  induction fields with
  | nil =>
    exact fun buf _ => iff_of_true (printfTokens_last memory buf)
      fun place field here => absurd here (by simp)
  | cons field fields ih =>
    intro buf clear
    obtain ⟨here, later⟩ := List.forall_mem_cons.mp clear
    obtain ⟨branch, chosen, printed, size⟩ := branchOf_type here
    rw [List.map_cons, List.cons_append, printfTokens_piece memory chosen, declaredLines_cons,
      List.cons.injEq, lineOf_eq_iff, printed, size, value_shownAs_iff, ih _ later,
      topBitsClear_cons]

end Lines

/-! ### The echo of a struct -/

section Struct

/-- **The echo decoder follows a declared struct** for every instance exactly if each field has a
type that is printed as declared and a name that does not mislead. If no name misleads, it does so
for one instance exactly if the top bits are clear of the fields that are printed with the other
signedness. -/
theorem echo_follows_iff (fields : List Field) (structName : Identifier) (buf : ℕ) :
    ((∀ memory, abusEchoDataByToken memory (dataTypeText fields structName) buf =
        some ⟨structName.chars ++ [':'], declaredLines memory fields buf⟩) ↔
      ∀ field ∈ fields, field.type ∈ [Member.i32, .u16, .u8, .u64, .f32, .f64] ∧
        ¬ field.Misleads) ∧
    ((∀ field ∈ fields, ¬ field.Misleads) → ∀ memory,
      (abusEchoDataByToken memory (dataTypeText fields structName) buf =
          some ⟨structName.chars ++ [':'], declaredLines memory fields buf⟩ ↔
        TopBitsClear memory fields buf)) := by
  simp only [echo_dataTypeText, Option.some.injEq, Echo.mk.injEq, true_and]
  exact ⟨lines_always_iff fields buf, fun clear memory => lines_iff memory fields buf clear⟩

/-- `struct s` with the fields `uint8_t b` and `int16_t g`. -/
def mixedFields : List Field :=
  [⟨true, .u8, ⟨['b'], by decide, by decide, by decide⟩⟩,
    ⟨true, .i16, ⟨['g'], by decide, by decide, by decide⟩⟩]

/-- `struct s` with the fields `uint8_t short_b` and `uint8_t b`. -/
def misleadingFields : List Field :=
  [⟨true, .u8, ⟨"short_b".toList, by decide, by decide, by decide⟩⟩,
    ⟨true, .u8, ⟨['b'], by decide, by decide, by decide⟩⟩]

def structS : Identifier := ⟨['s'], by decide, by decide, by decide⟩

/-- Over zeros the fields `b` and `g` are printed as they are declared. -/
theorem echo_follows_mixed :
    (∀ field ∈ mixedFields, ¬ field.Misleads) ∧
      (abusEchoDataByToken (fun _ => 0) (dataTypeText mixedFields structS) 7 =
          some ⟨structS.chars ++ [':'], declaredLines (fun _ => 0) mixedFields 7⟩ ↔
        TopBitsClear (fun _ => 0) mixedFields 7) := by
  have clear : ∀ field ∈ mixedFields, ¬ field.Misleads := by decide +kernel
  exact ⟨clear, (echo_follows_iff mixedFields structS 7).2 clear _⟩

/-- The bytes `FF FF` of `g` are declared as -1 and printed as 65535. With the bytes 1, 2 and 3 the
fields `short_b` and `b` are declared as 1 and 2 and printed as 513 and 3. -/
theorem echo_misreads :
    (abusEchoDataByToken (fun _ => 255) (dataTypeText mixedFields structS) 0 =
        some ⟨"s:".toList, [⟨"         uint8_t b".toList, .int 255⟩,
          ⟨"         int16_t g".toList, .int 65535⟩]⟩ ∧
      declaredLines (fun _ => 255) mixedFields 0 =
        [⟨"         uint8_t b".toList, .int 255⟩, ⟨"         int16_t g".toList, .int (-1)⟩]) ∧
      (abusEchoDataByToken (fun place => UInt8.ofNat (place + 1))
          (dataTypeText misleadingFields structS) 0 =
        some ⟨"s:".toList, [⟨"   uint8_t short_b".toList, .int 513⟩,
          ⟨"         uint8_t b".toList, .int 3⟩]⟩ ∧
      declaredLines (fun place => UInt8.ofNat (place + 1)) misleadingFields 0 =
        [⟨"   uint8_t short_b".toList, .int 1⟩, ⟨"         uint8_t b".toList, .int 2⟩]) := by
  decide +kernel

end Struct

end Robocon.Abus
