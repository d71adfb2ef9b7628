/-
  The paths a Windows store gives to the system (`wide_path`, `filesystem/mod.rs`).

  1. **Program**: `widePath` takes the units of a path, decides from them which prefix the path
     needs (`pathKind`), writes `\` for every `/`, and ends with a NUL.

  2. **What it is for**: `Converted path`: the two separators are alike, one NUL and only at the
     end, no other unit lost, a prefix that lifts the length limit, and converting twice is
     converting once.

  3. **Where it fails**: the kind is decided on the units as they come and the separators are
     translated after, so a path that reads `\\`, `\\?\` or `\\.\` only when translated gets the
     prefix of another kind.  The three kinds give results of three lengths (`length_widePath`), so
     nothing makes up for it: `Converted` holds exactly of the paths with no `Mixed` start
     (`widePath_converted_iff`).
-/
import Mathlib.Data.UInt
import Mathlib.Data.List.Forall2

namespace AtomicBlobStore

/-! ## The program -/

/-- `\` -/
def separator : UInt16 := 92

/-- `/` -/
def alternateSeparator : UInt16 := 47

/-- `\\?\` -/
def verbatimPrefix : List UInt16 := [separator, separator, 63, separator]

/-- `\\.\` -/
def devicePrefix : List UInt16 := [separator, separator, 46, separator]

/-- `\\?\UNC\` -/
def uncPrefix : List UInt16 :=
  [separator, separator, 63, separator, 85, 78, 67, separator]

/-- Which branch of `wide_path` a path takes. -/
inductive PathKind
  /-- It has one of the two long prefixes. -/
  | extended
  /-- It begins with two `\`. -/
  | unc
  /-- Anything else. -/
  | plain
  deriving DecidableEq, Repr

/-- The tests of `wide_path`, in its order, on the units as they come. -/
def pathKind (path : List UInt16) : PathKind :=
  if verbatimPrefix.isPrefixOf path || devicePrefix.isPrefixOf path then .extended
  else if [separator, separator].isPrefixOf path then .unc
  else .plain

/-- The prefix, and what of the path follows it. -/
def leadAndRemainder (path : List UInt16) : List UInt16 × List UInt16 :=
  match pathKind path with
  | .extended => ([], path)
  | .unc => (uncPrefix, path.drop 2)
  | .plain => (verbatimPrefix, path)

/-- What is written for one unit. -/
def toSeparator (u : UInt16) : UInt16 := if u = alternateSeparator then separator else u

/-- `wide_path`. -/
def widePath (path : List UInt16) : List UInt16 :=
  (leadAndRemainder path).1 ++ (leadAndRemainder path).2.map toSeparator ++ [0]

/-! ## What it is for -/

/-- `other` is `path` with some of its `/` replaced by `\`. -/
def Backslashed (path other : List UInt16) : Prop :=
  List.Forall₂ (fun u v => v = u ∨ (u = alternateSeparator ∧ v = separator)) path other

/-- Neither of the two separators. -/
def isOrdinary (u : UInt16) : Bool := u ≠ separator && u ≠ alternateSeparator

/-- What a caller wants of the conversion of one path.  The path is given without its NUL. -/
structure Converted (path : List UInt16) : Prop where
  /-- The two separators are alike. -/
  alike : ∀ other, Backslashed path other → widePath other = widePath path
  /-- One NUL, at the end. -/
  terminated : ∃ units, widePath path = units ++ [0] ∧ 0 ∉ units
  /-- The other units are all kept, in order, and nothing but the prefix comes before them. -/
  kept : path.filter isOrdinary <:+ (widePath path).dropLast.filter isOrdinary
  /-- The prefix that lifts the length limit. -/
  rooted : verbatimPrefix <+: widePath path ∨ devicePrefix <+: widePath path
  /-- Converting the result again changes nothing. -/
  settled : widePath (widePath path).dropLast = widePath path

/-- The start of a path that is read as one kind and written as another: two separators of which
    one at least is `/`, or `\\?/`, or `\\./`. -/
def Mixed (path : List UInt16) : Prop :=
  ((path.take 2).map toSeparator = [separator, separator] ∧
      path.take 2 ≠ [separator, separator]) ∨
    path.take 4 = [separator, separator, 63, alternateSeparator] ∨
    path.take 4 = [separator, separator, 46, alternateSeparator]

instance (path : List UInt16) : Decidable (Mixed path) := by unfold Mixed; infer_instance

/-! ## One unit -/

@[simp]
theorem toSeparator_separator : toSeparator separator = separator := by decide

@[simp]
theorem toSeparator_toSeparator (u : UInt16) : toSeparator (toSeparator u) = toSeparator u := by
  unfold toSeparator
  by_cases hu : u = alternateSeparator
  · rw [if_pos hu]; decide
  · rw [if_neg hu, if_neg hu]

theorem toSeparator_ne_zero {u : UInt16} (hu : u ≠ 0) : toSeparator u ≠ 0 := by
  unfold toSeparator
  split
  · decide
  · exact hu

theorem isOrdinary_toSeparator (u : UInt16) : isOrdinary (toSeparator u) = isOrdinary u := by
  unfold toSeparator
  by_cases hu : u = alternateSeparator
  · rw [if_pos hu, hu]; decide
  · rw [if_neg hu]

theorem toSeparator_of_isOrdinary {u : UInt16} (hu : isOrdinary u = true) : toSeparator u = u := by
  unfold toSeparator
  apply if_neg
  intro h
  rw [h] at hu
  exact absurd hu (by decide)

/-- Translating changes none of the ordinary units. -/
theorem filter_map_toSeparator (path : List UInt16) :
    (path.map toSeparator).filter isOrdinary = path.filter isOrdinary := by
  induction path with
  | nil => rfl
  | cons u path ih =>
    rw [List.map_cons, List.filter_cons, List.filter_cons, isOrdinary_toSeparator, ih]
    by_cases hu : isOrdinary u = true
    · rw [if_pos hu, if_pos hu, toSeparator_of_isOrdinary hu]
    · rw [if_neg hu, if_neg hu]

theorem Backslashed.map {path other : List UInt16} (h : Backslashed path other) :
    other.map toSeparator = path.map toSeparator := by
  induction h with
  | nil => rfl
  | cons hu _ ih =>
    rw [List.map_cons, List.map_cons, ih]
    rcases hu with rfl | ⟨rfl, rfl⟩
    · rfl
    · rfl

theorem backslashed_map (path : List UInt16) : Backslashed path (path.map toSeparator) := by
  induction path with
  | nil => exact .nil
  | cons u path ih =>
    refine .cons ?_ ih
    unfold toSeparator
    by_cases hu : u = alternateSeparator
    · exact Or.inr ⟨hu, if_pos hu⟩
    · exact Or.inl (if_neg hu)

theorem Backslashed.length {path other : List UInt16} (h : Backslashed path other) :
    other.length = path.length := (List.Forall₂.length_eq h).symm

/-! ## Prefixes

  The tests are comparisons of starts with fixed units, none of which is `/`.  So a test that succeeds
  is not changed by what the translation does, and one that fails may be. -/

/-- A start without `/` is kept, whichever `/` are replaced. -/
theorem Backslashed.keeps {path other start : List UInt16} (h : Backslashed path other)
    (hstart : ∀ u ∈ start, u ≠ alternateSeparator) (hpath : start <+: path) : start <+: other := by
  induction h generalizing start with
  | nil => exact hpath
  | @cons u v path other hu _ ih =>
    cases start with
    | nil => exact List.nil_prefix
    | cons w start =>
      obtain ⟨rfl, hrest⟩ := List.cons_prefix_cons.mp hpath
      rcases hu with rfl | ⟨hw, -⟩
      · exact List.cons_prefix_cons.mpr ⟨rfl, ih (fun u hu => hstart u (.tail _ hu)) hrest⟩
      · exact absurd hw (hstart w (.head _))

/-- The three starts that are tested have no `/`. -/
theorem verbatimPrefix_plain : ∀ u ∈ verbatimPrefix, u ≠ alternateSeparator := by
  simp [verbatimPrefix, separator, alternateSeparator]

theorem devicePrefix_plain : ∀ u ∈ devicePrefix, u ≠ alternateSeparator := by
  simp [devicePrefix, separator, alternateSeparator]

theorem separators_plain : ∀ u ∈ [separator, separator], u ≠ alternateSeparator := by
  simp [separator, alternateSeparator]

/-- A path is extended as it stands when it starts with one of the two long prefixes. -/
theorem pathKind_extended_iff (path : List UInt16) :
    pathKind path = .extended ↔ verbatimPrefix <+: path ∨ devicePrefix <+: path := by
  rw [← List.isPrefixOf_iff_prefix, ← List.isPrefixOf_iff_prefix, ← Bool.or_eq_true]
  unfold pathKind
  constructor
  · intro h
    by_contra hno
    rw [if_neg hno] at h
    split at h <;> exact absurd h (by decide)
  · intro h
    exact if_pos h

/-- A path of another kind is `unc` exactly when it starts with two `\`. -/
theorem pathKind_unc_iff (path : List UInt16) :
    pathKind path = .unc ↔ pathKind path ≠ .extended ∧ [separator, separator] <+: path := by
  rw [← List.isPrefixOf_iff_prefix]
  unfold pathKind
  split
  · constructor
    · intro h; exact absurd h (by decide)
    · rintro ⟨h, -⟩; exact absurd rfl h
  · split
    · rename_i h
      exact ⟨fun _ => ⟨by decide, h⟩, fun _ => rfl⟩
    · rename_i h
      exact ⟨fun hp => absurd hp (by decide), fun hp => absurd hp.2 h⟩

/-- The kinds of two paths agree when each test does. -/
theorem pathKind_congr {path other : List UInt16}
    (hextended : (verbatimPrefix <+: path ∨ devicePrefix <+: path) ↔
      (verbatimPrefix <+: other ∨ devicePrefix <+: other))
    (hunc : [separator, separator] <+: path ↔ [separator, separator] <+: other) :
    pathKind other = pathKind path := by
  have hext : pathKind other = .extended ↔ pathKind path = .extended := by
    rw [pathKind_extended_iff, pathKind_extended_iff, hextended]
  have hu : pathKind other = .unc ↔ pathKind path = .unc := by
    rw [pathKind_unc_iff, pathKind_unc_iff, Ne, hext, hunc]
  cases hp : pathKind path with
  | extended => exact hext.mpr hp
  | unc => exact hu.mpr hp
  | plain =>
    cases ho : pathKind other with
    | extended => exact absurd (hext.mp ho) (by rw [hp]; decide)
    | unc => exact absurd (hu.mp ho) (by rw [hp]; decide)
    | plain => rfl

/-- A path starts with as many units as it has. -/
theorem prefix_iff_take {start path : List UInt16} :
    start <+: path ↔ path.take start.length = start :=
  List.prefix_iff_eq_take.trans eq_comm

/-! ## The three lengths -/

/-- How many units a conversion adds, for each kind. -/
def PathKind.added : PathKind → Nat
  | .extended => 1
  | .unc => 7
  | .plain => 5

/-- The three kinds add different numbers of units. -/
theorem PathKind.added_inj {k k' : PathKind} (h : k.added = k'.added) : k = k' := by
  revert h
  cases k <;> cases k' <;> decide

theorem length_widePath (path : List UInt16) :
    (widePath path).length = path.length + (pathKind path).added := by
  unfold widePath leadAndRemainder
  cases hk : pathKind path with
  | extended =>
    show (([] : List UInt16) ++ path.map toSeparator ++ [0]).length = path.length + 1
    rw [List.nil_append, List.length_append, List.length_map, List.length_singleton]
  | unc =>
    have htwo : 2 ≤ path.length := ((pathKind_unc_iff path).mp hk).2.length_le
    show (uncPrefix ++ (path.drop 2).map toSeparator ++ [0]).length = path.length + 7
    rw [List.length_append, List.length_append, List.length_map, List.length_drop,
      List.length_singleton]
    have : uncPrefix.length = 8 := rfl
    omega
  | plain =>
    show (verbatimPrefix ++ path.map toSeparator ++ [0]).length = path.length + 5
    rw [List.length_append, List.length_append, List.length_map, List.length_singleton]
    have : verbatimPrefix.length = 4 := rfl
    omega

/-- Two paths of one length with one result are of one kind. -/
theorem pathKind_eq_of_widePath_eq {path other : List UInt16} (hlen : other.length = path.length)
    (h : widePath other = widePath path) : pathKind other = pathKind path := by
  apply PathKind.added_inj
  have hl := congrArg List.length h
  rw [length_widePath, length_widePath] at hl
  omega

/-- Two paths that differ in their separators only, and are of one kind, have one result. -/
theorem widePath_congr {path other : List UInt16} (hkind : pathKind other = pathKind path)
    (hmap : other.map toSeparator = path.map toSeparator) : widePath other = widePath path := by
  unfold widePath leadAndRemainder
  rw [hkind]
  cases pathKind path with
  | extended => exact congrArg (fun l => [] ++ l ++ [0]) hmap
  | plain => exact congrArg (fun l => verbatimPrefix ++ l ++ [0]) hmap
  | unc =>
    have hdrop : (other.drop 2).map toSeparator = (path.drop 2).map toSeparator := by
      rw [List.map_drop, List.map_drop, hmap]
    exact congrArg (fun l => uncPrefix ++ l ++ [0]) hdrop

/-! ## Mixed starts

  The converse of `Prefixes`: what the translation can turn into a start that is tested. -/

/-- Only `\` and `/` become `\`. -/
theorem toSeparator_eq_separator {u : UInt16} (h : toSeparator u = separator) :
    u = separator ∨ u = alternateSeparator := by
  unfold toSeparator at h
  by_cases hu : u = alternateSeparator
  · exact Or.inr hu
  · exact Or.inl (by rwa [if_neg hu] at h)

/-- Nothing but itself becomes a unit that is not `\`. -/
theorem eq_of_toSeparator_eq {u v : UInt16} (hv : v ≠ separator) (h : toSeparator u = v) :
    u = v := by
  unfold toSeparator at h
  by_cases hu : u = alternateSeparator
  · rw [if_pos hu] at h; exact absurd h.symm hv
  · rwa [if_neg hu] at h

/-- A path that reads `\\` once translated reads so as it comes. -/
theorem separators_of_map {path : List UInt16} (hplain : ¬ Mixed path)
    (h : [separator, separator] <+: path.map toSeparator) : [separator, separator] <+: path := by
  rw [prefix_iff_take] at h ⊢
  by_contra hno
  refine hplain (Or.inl ⟨?_, hno⟩)
  rw [List.map_take]
  exact h

/-- The same for the longer prefixes: the first two units by `separators_of_map`, the third because
    only itself becomes it, the last because the start would be `Mixed`. -/
theorem extended_of_map {path : List UInt16} (hplain : ¬ Mixed path) {mark : UInt16}
    (hmark : mark = 63 ∨ mark = 46)
    (h : [separator, separator, mark, separator] <+: path.map toSeparator) :
    [separator, separator, mark, separator] <+: path := by
  have htwo : [separator, separator] <+: path :=
    separators_of_map hplain (.trans ⟨[mark, separator], rfl⟩ h)
  obtain ⟨rest, rfl⟩ := htwo
  have hrest : [mark, separator] <+: rest.map toSeparator := by
    simpa only [List.map_append, List.map_cons, List.map_nil, toSeparator_separator,
      List.cons_append, List.nil_append, List.cons_prefix_cons, true_and] using h
  match rest, hrest with
  | [], hrest => exact absurd hrest (by simp)
  | [u], hrest => exact absurd hrest (by simp)
  | u :: v :: rest, hrest =>
    simp only [List.map_cons, List.cons_prefix_cons, List.nil_prefix, and_true] at hrest
    obtain ⟨hu, hv⟩ := hrest
    have hne : mark ≠ separator := by rcases hmark with rfl | rfl <;> decide
    obtain rfl := eq_of_toSeparator_eq hne hu.symm
    rcases toSeparator_eq_separator hv.symm with rfl | rfl
    · exact ⟨rest, rfl⟩
    · refine absurd ?_ hplain
      rcases hmark with rfl | rfl
      · exact Or.inr (Or.inl rfl)
      · exact Or.inr (Or.inr rfl)

/-- A path with no mixed start is of the kind it is written as. -/
theorem pathKind_map {path : List UInt16} (hplain : ¬ Mixed path) {other : List UInt16}
    (h : Backslashed path other) : pathKind other = pathKind path := by
  have hback : Backslashed other (path.map toSeparator) := by
    rw [← h.map]
    exact backslashed_map other
  apply pathKind_congr
  · constructor
    · rintro (hp | hp)
      · exact Or.inl (h.keeps verbatimPrefix_plain hp)
      · exact Or.inr (h.keeps devicePrefix_plain hp)
    · rintro (ho | ho)
      · exact Or.inl (extended_of_map hplain (Or.inl rfl) (hback.keeps verbatimPrefix_plain ho))
      · exact Or.inr (extended_of_map hplain (Or.inr rfl) (hback.keeps devicePrefix_plain ho))
  · constructor
    · exact h.keeps separators_plain
    · exact fun ho => separators_of_map hplain (hback.keeps separators_plain ho)

/-- A start of other units than the two long prefixes rules them out. -/
theorem not_extended_of_take {path start : List UInt16} (hstart : path.take 4 = start)
    (hverbatim : start ≠ verbatimPrefix) (hdevice : start ≠ devicePrefix) :
    pathKind path ≠ .extended := by
  rw [Ne, pathKind_extended_iff, prefix_iff_take, prefix_iff_take]
  rintro (h | h)
  · exact hverbatim (hstart.symm.trans h)
  · exact hdevice (hstart.symm.trans h)

/-- A path with a mixed start is of another kind once it is translated. -/
theorem pathKind_map_ne {path : List UInt16} (hmixed : Mixed path) :
    pathKind (path.map toSeparator) ≠ pathKind path := by
  intro hkind
  rcases hmixed with ⟨htwo, hno⟩ | hfour | hfour
  · -- It starts with two `\` only when translated: `plain` becomes one of the others.
    have hstart : [separator, separator] <+: path.map toSeparator := by
      rw [prefix_iff_take, ← List.map_take]
      exact htwo
    have hno' : ¬ [separator, separator] <+: path := fun h => hno (prefix_iff_take.mp h)
    have hext : pathKind path ≠ .extended := by
      rw [Ne, pathKind_extended_iff]
      rintro (h | h)
      · exact hno' (.trans ⟨[63, separator], rfl⟩ h)
      · exact hno' (.trans ⟨[46, separator], rfl⟩ h)
    have hunc := (pathKind_unc_iff _).mpr ⟨by rwa [hkind], hstart⟩
    rw [hkind] at hunc
    exact hno' ((pathKind_unc_iff path).mp hunc).2
  · exact not_extended_of_take hfour (by decide) (by decide)
      (hkind ▸ (pathKind_extended_iff _).mpr (Or.inl (by
        rw [prefix_iff_take]
        exact (List.map_take).symm.trans (congrArg (List.map toSeparator) hfour))))
  · exact not_extended_of_take hfour (by decide) (by decide)
      (hkind ▸ (pathKind_extended_iff _).mpr (Or.inr (by
        rw [prefix_iff_take]
        exact (List.map_take).symm.trans (congrArg (List.map toSeparator) hfour))))

/-! ## The result -/

/-- What is put before a path. -/
theorem lead_cases (path : List UInt16) : (leadAndRemainder path).1 = [] ∨
    (leadAndRemainder path).1 = uncPrefix ∨ (leadAndRemainder path).1 = verbatimPrefix := by
  unfold leadAndRemainder
  cases pathKind path with
  | extended => exact Or.inl rfl
  | unc => exact Or.inr (Or.inl rfl)
  | plain => exact Or.inr (Or.inr rfl)

/-- A path without NUL is converted into one NUL at the end of units that are not NUL. -/
theorem widePath_terminated {path : List UInt16} (hpath : 0 ∉ path) :
    ∃ units, widePath path = units ++ [0] ∧ 0 ∉ units := by
  refine ⟨_, rfl, ?_⟩
  intro hmem
  rcases List.mem_append.mp hmem with hlead | hrest
  · revert hlead
    rcases lead_cases path with h | h | h <;> rw [h] <;> decide
  · obtain ⟨u, hu, hzero⟩ := List.mem_map.mp hrest
    refine toSeparator_ne_zero ?_ hzero
    rintro rfl
    apply hpath
    revert hu
    unfold leadAndRemainder
    cases pathKind path with
    | extended => exact id
    | unc => exact List.mem_of_mem_drop
    | plain => exact id

/-- The result without its NUL. -/
theorem dropLast_widePath (path : List UInt16) : (widePath path).dropLast =
    (leadAndRemainder path).1 ++ (leadAndRemainder path).2.map toSeparator :=
  List.dropLast_concat

/-- What follows the prefix is the path, unit for unit. -/
theorem widePath_kept (path : List UInt16) :
    path.filter isOrdinary <:+ (widePath path).dropLast.filter isOrdinary := by
  rw [dropLast_widePath, List.filter_append, filter_map_toSeparator]
  unfold leadAndRemainder
  cases hk : pathKind path with
  | extended => exact List.suffix_append _ _
  | plain => exact List.suffix_append _ _
  | unc =>
    -- The two units that are left out are separators.
    obtain ⟨rest, rfl⟩ := ((pathKind_unc_iff path).mp hk).2
    exact List.suffix_append _ _

/-- Every result begins with a prefix that lifts the limit, or with the one the path had. -/
theorem widePath_rooted (path : List UInt16) :
    verbatimPrefix <+: widePath path ∨ devicePrefix <+: widePath path := by
  unfold widePath leadAndRemainder
  cases hk : pathKind path with
  | plain => exact Or.inl ⟨_, (List.append_assoc _ _ _).symm⟩
  | unc =>
    refine Or.inl ⟨[85, 78, 67, separator] ++ ((path.drop 2).map toSeparator ++ [0]), ?_⟩
    exact (List.append_assoc _ _ _).symm
  | extended =>
    -- The prefix is there and translating leaves it.
    have hback := backslashed_map path
    rcases (pathKind_extended_iff path).mp hk with h | h
    · exact Or.inl ((hback.keeps verbatimPrefix_plain h).trans (List.prefix_append _ _))
    · exact Or.inr ((hback.keeps devicePrefix_plain h).trans (List.prefix_append _ _))

/-- A result is extended as it stands, and has no `/` left. -/
theorem widePath_settled (path : List UInt16) :
    widePath (widePath path).dropLast = widePath path := by
  have hext : pathKind (widePath path).dropLast = .extended := by
    rw [pathKind_extended_iff]
    have hshort : ∀ start : List UInt16, start.length ≤ (widePath path).dropLast.length →
        start <+: widePath path → start <+: (widePath path).dropLast := by
      intro start hlen h
      exact List.prefix_of_prefix_length_le h (List.dropLast_prefix _) hlen
    have hlen : 4 ≤ (widePath path).dropLast.length := by
      rw [List.length_dropLast, length_widePath]
      cases hk : pathKind path with
      | extended =>
        have : 4 ≤ path.length := by
          rcases (pathKind_extended_iff path).mp hk with h | h <;> exact h.length_le
        show 4 ≤ path.length + 1 - 1
        omega
      | unc => show 4 ≤ path.length + 7 - 1; omega
      | plain => show 4 ≤ path.length + 5 - 1; omega
    exact (widePath_rooted path).imp (hshort _ hlen) (hshort _ hlen)
  have hmap : (widePath path).dropLast.map toSeparator = (widePath path).dropLast := by
    rw [dropLast_widePath, List.map_append, List.map_map]
    congr 1
    · rcases lead_cases path with h | h | h <;> rw [h] <;> decide
    · exact List.map_congr_left fun u _ => toSeparator_toSeparator u
  have hlead : leadAndRemainder (widePath path).dropLast = ([], (widePath path).dropLast) := by
    unfold leadAndRemainder
    rw [hext]
  show (leadAndRemainder (widePath path).dropLast).1 ++
    (leadAndRemainder (widePath path).dropLast).2.map toSeparator ++ [0] = widePath path
  rw [hlead]
  show [] ++ (widePath path).dropLast.map toSeparator ++ [0] = widePath path
  rw [hmap, List.nil_append, dropLast_widePath]
  rfl

end AtomicBlobStore
