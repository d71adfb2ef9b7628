/-
  The names a store gives to its files (`path.rs`, `filesystem/mod.rs`).

  Every name starts with the 64 hexadecimal digits of a key, so `Owns key name` says whose file it
  is, and two keys own nothing in common.  What follows the digits tells the kinds apart: the suffix
  of a format has one dot, and each marker adds more, so canonical, quarantine and staging names
  have one, three and four dots (`dots_blobFilename`, `dots_quarantineFilename`,
  `dots_stagingFilename`).  `fileStem_blobFilename` is what the operations rely on when they recover
  the digits from a path.
-/
import AtomicBlobStore.Config
import Mathlib.Data.List.Count

namespace AtomicBlobStore

/-! ## Names

  A store puts three kinds of files into its directory: blobs, blobs that were quarantined, and (on
  Windows) files on their way to become a blob or to be deleted.  A name tells the key, the format and
  the kind, and for the last two an identifier of 32 random bytes. -/

/-- What a staging file is for. -/
inductive StagingKind
  /-- A blob on its way to its place. -/
  | save
  /-- A blob on its way out. -/
  | clear
  deriving DecidableEq, Repr

/-- The word that names the kind. -/
def StagingKind.word : StagingKind → List Char
  | .save => "save".toList
  | .clear => "clear".toList

/-- `"{hash}{suffix}.tmp-v1.save.{identifier}"`, and the same with `clear`. -/
def stagingFilename (hash suffix : List Char) (kind : StagingKind) (identifier : List Char) :
    FileName :=
  hash ++ suffix ++ ".tmp-v1.".toList ++ kind.word ++ ".".toList ++ identifier

/-- `"{hash}{suffix}.quarantine-v1.{identifier}"`. -/
def quarantineFilename (hash suffix identifier : List Char) : FileName :=
  hash ++ suffix ++ ".quarantine-v1.".toList ++ identifier

/-- What precedes the last dot, if there is one. -/
def beforeLastDot (name : FileName) : Option FileName :=
  match name.reverse.dropWhile fun c => c ≠ '.' with
  | [] => none
  | _ :: before => some before.reverse

/-- `Path::file_stem` of a name: a dot at the front does not end the stem, and the two names that stand
    for directories have none.  The store only asks for the stem of canonical names, from which it
    recovers the digits of the key. -/
def fileStem (name : FileName) : Option FileName :=
  if name = [] ∨ name = ".".toList ∨ name = "..".toList then none
  else match beforeLastDot name with
    | none => some name
    | some [] => some name
    | some before => some before

/-- `str::split_once`: around the first occurrence of a marker. -/
def splitOnce (marker : List Char) : List Char → Option (List Char × List Char)
  | [] => if marker = [] then some ([], []) else none
  | c :: cs =>
    if marker.isPrefixOf (c :: cs) then some ([], (c :: cs).drop marker.length)
    else (splitOnce marker cs).map fun (front, back) => (c :: front, back)

/-- `byte.is_ascii_hexdigit() && !byte.is_ascii_uppercase()`. -/
def isLowerHexDigit (c : Char) : Bool := ('0' ≤ c && c ≤ '9') || ('a' ≤ c && c ≤ 'f')

/-- Sixty-four lowercase hexadecimal digits. -/
def isDigest (hash : List Char) : Bool := hash.length == 64 && hash.all isLowerHexDigit

/-- `is_owned_temporary_filename`.  It cuts the name at the FIRST occurrence of each marker and checks
    every piece; that no other way of cutting would have found a name (`isOwnedTemporaryFilename_iff`)
    is because no piece has a dot in it. -/
def isOwnedTemporaryFilename (name : FileName) (suffix : List Char) : Bool :=
  match splitOnce (suffix ++ ".tmp-v1.".toList) name with
  | none => false
  | some (hash, rest) =>
    isDigest hash &&
      match splitOnce ".".toList rest with
      | none => false
      | some (kind, identifier) =>
        (kind == StagingKind.save.word || kind == StagingKind.clear.word) && isDigest identifier

/-! ## Digits

  Hexadecimal digits spell bytes without ambiguity and contain no dot: the two facts that everything
  about names rests on. -/

theorem hexDigit_inj : ∀ m n : Fin 16, hexDigit m = hexDigit n → m = n := by decide

theorem hexDigit_ne_dot : ∀ n : Fin 16, hexDigit n ≠ '.' := by decide

theorem toHex_cons (byte : UInt8) (bytes : List UInt8) :
    toHex (byte :: bytes) = hexDigit (byte.toNat / 16) :: hexDigit (byte.toNat % 16) :: toHex bytes :=
  rfl

theorem high_lt (byte : UInt8) : byte.toNat / 16 < 16 := by
  have := byte.toNat_lt
  omega

theorem low_lt (byte : UInt8) : byte.toNat % 16 < 16 := Nat.mod_lt _ (by decide)

/-- **The digits spell the bytes.** -/
theorem toHex_inj : ∀ {x y : List UInt8}, toHex x = toHex y → x = y := by
  intro x
  induction x with
  | nil =>
    intro y h
    cases y with
    | nil => rfl
    | cons byte y => nomatch h
  | cons byte x ih =>
    intro y h
    cases y with
    | nil => nomatch h
    | cons byte' y =>
      rw [toHex_cons, toHex_cons] at h
      obtain ⟨hhigh, hrest⟩ := List.cons.inj h
      obtain ⟨hlow, hrest⟩ := List.cons.inj hrest
      have hhigh := Fin.mk.inj (hexDigit_inj ⟨_, high_lt byte⟩ ⟨_, high_lt byte'⟩ hhigh)
      have hlow := Fin.mk.inj (hexDigit_inj ⟨_, low_lt byte⟩ ⟨_, low_lt byte'⟩ hlow)
      have hbyte : byte = byte' := UInt8.toNat_inj.mp (by omega)
      rw [hbyte, ih hrest]

/-! ## Dots

  Digits have none, a suffix has one and each marker a fixed number, so counting them tells the kinds of
  names apart without taking a name to pieces. -/

/-- How many dots a name has. -/
abbrev dots (name : FileName) : Nat := name.count '.'

theorem dots_append (front back : FileName) : dots (front ++ back) = dots front + dots back :=
  List.count_append

theorem dots_toHex (bytes : List UInt8) : dots (toHex bytes) = 0 := by
  rw [List.count_eq_zero]
  induction bytes with
  | nil => exact List.not_mem_nil
  | cons byte bytes ih =>
    rw [toHex_cons, List.mem_cons, List.mem_cons]
    rintro (h | h | h)
    · exact hexDigit_ne_dot ⟨_, high_lt byte⟩ h.symm
    · exact hexDigit_ne_dot ⟨_, low_lt byte⟩ h.symm
    · exact ih h

/-- A valid suffix is a dot and something without dots. -/
theorem suffix_eq (format : BlobFormatIdentity) :
    ∃ rest, format.filenameSuffix = '.' :: rest ∧ '.' ∉ rest := by
  have hvalid := format.suffixValid
  unfold validateSuffix at hvalid
  simp only [Bool.and_eq_true, beq_iff_eq, List.all_eq_true] at hvalid
  obtain ⟨⟨-, hhead⟩, htail⟩ := hvalid
  cases hsuffix : format.filenameSuffix with
  | nil =>
    rw [hsuffix] at hhead
    nomatch hhead
  | cons c rest =>
    rw [hsuffix] at hhead htail
    obtain rfl : c = '.' := Option.some.inj hhead
    refine ⟨rest, rfl, fun hmem => ?_⟩
    exact absurd (htail '.' hmem) (by decide)

theorem dots_suffix (format : BlobFormatIdentity) : dots format.filenameSuffix = 1 := by
  obtain ⟨rest, hsuffix, hrest⟩ := suffix_eq format
  rw [hsuffix, dots, List.count_cons_self, List.count_eq_zero.mpr hrest]

section Kinds

variable (format : BlobFormatIdentity) (key : KeyHash) (bytes : List UInt8)

theorem dots_blobFilename : dots (blobFilename format key) = 1 := by
  rw [blobFilename, dots_append, dots_toHex, dots_suffix]

theorem dots_quarantineFilename (identifier : List Char) :
    3 ≤ dots (quarantineFilename (toHex key.toList) format.filenameSuffix identifier) := by
  have hmarker : dots ".quarantine-v1.".toList = 2 := by decide
  simp only [quarantineFilename, dots_append, dots_toHex, dots_suffix, hmarker]
  omega

theorem dots_stagingFilename (kind : StagingKind) (identifier : List Char) :
    4 ≤ dots (stagingFilename (toHex key.toList) format.filenameSuffix kind identifier) := by
  have hmarker : dots ".tmp-v1.".toList = 2 := by decide
  have hdot : dots ".".toList = 1 := by decide
  simp only [stagingFilename, dots_append, dots_toHex, dots_suffix, hmarker, hdot]
  omega

/-- **The stem of a canonical name is the digits of its key.** -/
theorem fileStem_blobFilename : fileStem (blobFilename format key) = some (toHex key.toList) := by
  obtain ⟨rest, hsuffix, hrest⟩ := suffix_eq format
  have hlength : (toHex key.toList).length = 64 := length_toHex_keyHash key
  have hlast : beforeLastDot (blobFilename format key) = some (toHex key.toList) := by
    unfold beforeLastDot blobFilename
    rw [hsuffix, List.reverse_append, List.reverse_cons, List.append_assoc,
      List.dropWhile_append_of_pos fun c hc => ?_]
    · simp
    · have : c ≠ '.' := fun h => hrest (by rwa [← h, ← List.mem_reverse])
      simp [this]
  have hlong : 2 < (blobFilename format key).length := by
    rw [blobFilename, List.length_append]
    omega
  unfold fileStem
  rw [if_neg, hlast]
  · cases hstem : toHex key.toList with
    | nil => rw [hstem] at hlength; nomatch hlength
    | cons c stem => rfl
  · rintro (h | h | h)
    · rw [h] at hlong
      exact absurd hlong (by decide)
    · rw [h] at hlong
      exact absurd hlong (by decide)
    · rw [h] at hlong
      exact absurd hlong (by decide)

end Kinds

/-! ## Whose name it is

  All names of a key begin with its 64 digits.  This is what lets jobs on different keys share a
  directory: whatever a job touches under its own digits is nobody else's. -/

/-- The name starts with the digits of the key. -/
def Owns (key : KeyHash) (name : FileName) : Prop := name.take 64 = toHex key.toList

/-- **Two keys own nothing in common.** -/
theorem Owns.key_eq {key key' : KeyHash} {name : FileName} (h : Owns key name) (h' : Owns key' name) :
    key = key' := Vector.toList_inj.mp (toHex_inj (h.symm.trans h'))

theorem owns_append (key : KeyHash) (rest : List Char) : Owns key (toHex key.toList ++ rest) :=
  List.take_left' (length_toHex_keyHash key)

theorem owns_blobFilename (format : BlobFormatIdentity) (key : KeyHash) :
    Owns key (blobFilename format key) := owns_append key _

theorem owns_quarantineFilename (key : KeyHash) (suffix identifier : List Char) :
    Owns key (quarantineFilename (toHex key.toList) suffix identifier) := by
  rw [quarantineFilename, List.append_assoc, List.append_assoc]
  exact owns_append key _

theorem owns_stagingFilename (key : KeyHash) (suffix : List Char) (kind : StagingKind)
    (identifier : List Char) : Owns key (stagingFilename (toHex key.toList) suffix kind identifier) := by
  simp only [stagingFilename, List.append_assoc]
  exact owns_append key _

/-- A canonical name is the name of one key. -/
theorem blobFilename_inj {format : BlobFormatIdentity} {key key' : KeyHash}
    (h : blobFilename format key = blobFilename format key') : key = key' :=
  (owns_blobFilename format key).key_eq (h ▸ owns_blobFilename format key')

/-! ## Staging names are not canonical -/

/-- What is split off contains the marker. -/
theorem splitOnce_eq {marker : List Char} : ∀ {name front back : List Char},
    splitOnce marker name = some (front, back) → name = front ++ marker ++ back := by
  intro name
  induction name with
  | nil =>
    intro front back h
    unfold splitOnce at h
    split at h
    · rename_i hmarker
      obtain ⟨rfl, rfl⟩ := Prod.mk.inj (Option.some.inj h)
      rw [hmarker]
      rfl
    · nomatch h
  | cons c cs ih =>
    intro front back h
    unfold splitOnce at h
    split at h
    · rename_i hprefix
      obtain ⟨rfl, rfl⟩ := Prod.mk.inj (Option.some.inj h)
      obtain ⟨rest, hrest⟩ := List.isPrefixOf_iff_prefix.mp hprefix
      rw [← hrest, List.drop_left]
      rfl
    · obtain ⟨⟨front', back'⟩, hsplit, heq⟩ := Option.map_eq_some_iff.mp h
      obtain ⟨rfl, rfl⟩ := Prod.mk.inj heq
      rw [ih hsplit]
      rfl

/-! ## Recognised exactly

  Cleanup deletes what the recogniser accepts, so it must accept staging names only; and it must accept
  all of them, or litter stays for ever.  Both directions come from cutting at dots: the text before the
  first dot is determined by the name, and so is the rest. -/

/-- A marker that begins with a dot is first found where the first dot is. -/
theorem splitOnce_at_dot {marker front back : List Char} (hfront : '.' ∉ front) :
    splitOnce ('.' :: marker) (front ++ '.' :: marker ++ back) = some (front, back) := by
  induction front with
  | nil =>
    have hhere : ('.' :: marker).isPrefixOf ('.' :: (marker ++ back)) = true :=
      List.isPrefixOf_iff_prefix.mpr ⟨back, rfl⟩
    show splitOnce ('.' :: marker) ('.' :: (marker ++ back)) = _
    rw [splitOnce, if_pos hhere]
    exact congrArg (fun rest => some ([], rest)) List.drop_left
  | cons c front ih =>
    rw [List.mem_cons, not_or] at hfront
    have hnot : ¬('.' :: marker).isPrefixOf (c :: (front ++ '.' :: marker ++ back)) = true := by
      intro h
      obtain ⟨rest, hrest⟩ := List.isPrefixOf_iff_prefix.mp h
      exact hfront.1 (List.cons.inj hrest).1
    show splitOnce ('.' :: marker) (c :: (front ++ '.' :: marker ++ back)) = _
    rw [splitOnce, if_neg hnot, ih hfront.2]
    rfl

/-- What precedes the first dot is in one place only. -/
theorem before_dot_inj : ∀ {front front' back back' : List Char}, '.' ∉ front → '.' ∉ front' →
    front ++ '.' :: back = front' ++ '.' :: back' → front = front' ∧ back = back' := by
  intro front
  induction front with
  | nil =>
    intro front' back back' _ hfront' h
    cases front' with
    | nil => exact ⟨rfl, (List.cons.inj h).2⟩
    | cons c front' => exact absurd (List.mem_cons.mpr (Or.inl (List.cons.inj h).1)) hfront'
  | cons c front ih =>
    intro front' back back' hfront hfront' h
    cases front' with
    | nil => exact absurd (List.mem_cons.mpr (Or.inl (List.cons.inj h).1.symm)) hfront
    | cons c' front' =>
      obtain ⟨rfl, hrest⟩ := List.cons.inj h
      rw [List.mem_cons, not_or] at hfront hfront'
      obtain ⟨rfl, rfl⟩ := ih hfront.2 hfront'.2 hrest
      exact ⟨rfl, rfl⟩

/-- No digit is a dot. -/
theorem isDigest_no_dot {hash : List Char} (h : isDigest hash = true) : '.' ∉ hash := by
  unfold isDigest at h
  rw [Bool.and_eq_true, List.all_eq_true] at h
  intro hmem
  exact absurd (h.2 '.' hmem) (by decide)

theorem isLowerHexDigit_hexDigit : ∀ n : Fin 16, isLowerHexDigit (hexDigit n) = true := by decide

/-- Thirty-two bytes make a digest. -/
theorem isDigest_toHex (bytes : Vector UInt8 32) : isDigest (toHex bytes.toList) = true := by
  unfold isDigest
  rw [length_toHex_keyHash, Bool.and_eq_true, List.all_eq_true]
  refine ⟨rfl, fun c hc => ?_⟩
  obtain ⟨byte, -, hc⟩ := List.mem_flatMap.mp hc
  rcases List.mem_cons.mp hc with rfl | hc
  · exact isLowerHexDigit_hexDigit ⟨_, high_lt byte⟩
  · obtain rfl := List.mem_singleton.mp hc
    exact isLowerHexDigit_hexDigit ⟨_, low_lt byte⟩

theorem word_no_dot : ∀ kind : StagingKind, '.' ∉ kind.word
  | .save => by decide
  | .clear => by decide

theorem word_inj : ∀ {kind kind' : StagingKind}, kind.word = kind'.word → kind = kind'
  | .save, .save, _ => rfl
  | .clear, .clear, _ => rfl
  | .save, .clear, h => absurd h (by decide)
  | .clear, .save, h => absurd h (by decide)

/-- A staging name, as the recogniser cuts it. -/
theorem stagingFilename_eq {hash rest : List Char} (kind : StagingKind) (identifier : List Char) :
    stagingFilename hash ('.' :: rest) kind identifier =
      hash ++ '.' :: (rest ++ ".tmp-v1.".toList) ++ (kind.word ++ '.' :: identifier) := by
  simp [stagingFilename]

/-- **The recogniser is exact.** -/
theorem isOwnedTemporaryFilename_iff (format : BlobFormatIdentity) (name : FileName) :
    isOwnedTemporaryFilename name format.filenameSuffix = true ↔
      ∃ hash kind identifier, isDigest hash = true ∧ isDigest identifier = true ∧
        name = stagingFilename hash format.filenameSuffix kind identifier := by
  obtain ⟨rest, hsuffix, -⟩ := suffix_eq format
  rw [hsuffix]
  constructor
  · intro h
    unfold isOwnedTemporaryFilename at h
    cases hsplit : splitOnce ('.' :: rest ++ ".tmp-v1.".toList) name with
    | none =>
      rw [hsplit] at h
      nomatch h
    | some parts =>
      obtain ⟨hash, tail⟩ := parts
      rw [hsplit] at h
      have h := (Bool.and_eq_true _ _).mp h
      cases htail : splitOnce ".".toList tail with
      | none =>
        rw [htail] at h
        nomatch h.2
      | some parts =>
        obtain ⟨word, identifier⟩ := parts
        rw [htail] at h
        obtain ⟨hword, hidentifier⟩ := (Bool.and_eq_true _ _).mp h.2
        obtain ⟨kind, rfl⟩ : ∃ kind : StagingKind, word = kind.word := by
          rcases (Bool.or_eq_true _ _).mp hword with hword | hword
          · exact ⟨.save, beq_iff_eq.mp hword⟩
          · exact ⟨.clear, beq_iff_eq.mp hword⟩
        refine ⟨hash, kind, identifier, h.1, hidentifier, ?_⟩
        rw [splitOnce_eq hsplit, splitOnce_eq htail]
        simp [stagingFilename]
  · rintro ⟨hash, kind, identifier, hhash, hidentifier, rfl⟩
    have hsplit : splitOnce ('.' :: rest ++ ".tmp-v1.".toList)
        (stagingFilename hash ('.' :: rest) kind identifier) =
        some (hash, kind.word ++ '.' :: identifier) := by
      rw [stagingFilename_eq]
      exact splitOnce_at_dot (isDigest_no_dot hhash)
    have htail : splitOnce ".".toList (kind.word ++ '.' :: identifier) =
        some (kind.word, identifier) := by
      rw [List.append_cons]
      exact splitOnce_at_dot (word_no_dot kind)
    unfold isOwnedTemporaryFilename
    rw [hsplit]
    show (isDigest hash && _) = true
    rw [hhash, htail]
    show ((kind.word == _ || kind.word == _) && isDigest identifier) = true
    rw [hidentifier]
    cases kind <;> rfl

/-- What a store names: a blob, a quarantined blob or a staging file.  With the key and the suffix, this
    is all that a name says. -/
inductive OwnedName
  | canonical
  | quarantine (identifier : Vector UInt8 32)
  | staging (kind : StagingKind) (identifier : Vector UInt8 32)

/-- What follows the suffix in a name. -/
def OwnedName.tail : OwnedName → List Char
  | .canonical => []
  | .quarantine identifier => ".quarantine-v1.".toList ++ toHex identifier.toList
  | .staging kind identifier =>
    ".tmp-v1.".toList ++ kind.word ++ ".".toList ++ toHex identifier.toList

/-- The name, for a format and a key. -/
def OwnedName.filename (format : BlobFormatIdentity) (key : KeyHash) : OwnedName → FileName
  | .canonical => blobFilename format key
  | .quarantine identifier =>
    quarantineFilename (toHex key.toList) format.filenameSuffix (toHex identifier.toList)
  | .staging kind identifier =>
    stagingFilename (toHex key.toList) format.filenameSuffix kind (toHex identifier.toList)

theorem OwnedName.filename_eq (format : BlobFormatIdentity) (key : KeyHash) (what : OwnedName) :
    what.filename format key = toHex key.toList ++ (format.filenameSuffix ++ what.tail) := by
  cases what with
  | canonical =>
    exact congrArg (toHex key.toList ++ ·) (List.append_nil format.filenameSuffix).symm
  | quarantine identifier =>
    show toHex key.toList ++ format.filenameSuffix ++ ".quarantine-v1.".toList ++
      toHex identifier.toList = _
    rw [List.append_assoc, List.append_assoc]
    rfl
  | staging kind identifier =>
    show toHex key.toList ++ format.filenameSuffix ++ ".tmp-v1.".toList ++ kind.word ++
      ".".toList ++ toHex identifier.toList = toHex key.toList ++ (format.filenameSuffix ++
        (".tmp-v1.".toList ++ kind.word ++ ".".toList ++ toHex identifier.toList))
    rw [List.append_assoc (toHex key.toList), List.append_assoc (toHex key.toList),
      List.append_assoc (toHex key.toList), List.append_assoc (toHex key.toList),
      List.append_assoc format.filenameSuffix, List.append_assoc format.filenameSuffix,
      List.append_assoc format.filenameSuffix]

/-- What may follow a suffix: nothing, or something that begins with a dot. -/
def AfterSuffix (tail : List Char) : Prop := tail = [] ∨ ∃ rest, tail = '.' :: rest

theorem OwnedName.afterSuffix : ∀ what : OwnedName, AfterSuffix what.tail
  | .canonical => Or.inl rfl
  | .quarantine _ => Or.inr ⟨_, rfl⟩
  | .staging _ _ => Or.inr ⟨_, rfl⟩

/-- A suffix ends where the next dot is. -/
theorem suffix_tail_inj {format format' : BlobFormatIdentity} {tail tail' : List Char}
    (htail : AfterSuffix tail) (htail' : AfterSuffix tail')
    (h : format.filenameSuffix ++ tail = format'.filenameSuffix ++ tail') :
    format.filenameSuffix = format'.filenameSuffix ∧ tail = tail' := by
  obtain ⟨rest, hsuffix, hdot⟩ := suffix_eq format
  obtain ⟨rest', hsuffix', hdot'⟩ := suffix_eq format'
  rw [hsuffix, hsuffix'] at h ⊢
  have h : rest ++ tail = rest' ++ tail' := (List.cons.inj h).2
  have hboth : rest = rest' ∧ tail = tail' := by
    rcases htail with rfl | ⟨more, rfl⟩
    · rcases htail' with rfl | ⟨more', rfl⟩
      · rw [List.append_nil, List.append_nil] at h
        exact ⟨h, rfl⟩
      · rw [List.append_nil] at h
        exact absurd (h ▸ List.mem_append_right _ (List.mem_cons_self ..)) hdot
    · rcases htail' with rfl | ⟨more', rfl⟩
      · rw [List.append_nil] at h
        exact absurd (h ▸ List.mem_append_right _ (List.mem_cons_self ..)) hdot'
      · obtain ⟨hrest, rfl⟩ := before_dot_inj hdot hdot' h
        exact ⟨hrest, rfl⟩
  rw [hboth.1]
  exact ⟨rfl, hboth.2⟩

/-- No quarantine name goes on as a staging name does. -/
theorem quarantine_ne_staging {quarantined staged : List Char} :
    ".quarantine-v1.".toList ++ quarantined ≠ ".tmp-v1.".toList ++ staged := by
  intro h
  have hsecond := congrArg (fun tail : List Char => tail[1]?) h
  nomatch hsecond

/-- What a staging name goes on with. -/
theorem OwnedName.tail_staging {what : OwnedName} {staged : List Char}
    (h : what.tail = ".tmp-v1.".toList ++ staged) :
    ∃ kind identifier, what = .staging kind identifier := by
  cases what with
  | canonical => nomatch h
  | quarantine identifier => exact absurd h quarantine_ne_staging
  | staging kind identifier => exact ⟨kind, identifier, rfl⟩

/-- The tail tells the kind, and the kind the identifier. -/
theorem OwnedName.tail_inj {what what' : OwnedName} (h : what.tail = what'.tail) : what = what' := by
  have hbytes {x y : Vector UInt8 32} (h : toHex x.toList = toHex y.toList) : x = y :=
    Vector.toList_inj.mp (toHex_inj h)
  cases what with
  | canonical =>
    cases what' with
    | canonical => rfl
    | quarantine identifier => nomatch h
    | staging kind identifier => nomatch h
  | quarantine identifier =>
    cases what' with
    | canonical => nomatch h
    | quarantine identifier' =>
      have h : ".quarantine-v1.".toList ++ toHex identifier.toList =
          ".quarantine-v1.".toList ++ toHex identifier'.toList := h
      rw [hbytes (List.append_cancel_left h)]
    | staging kind identifier' =>
      have h : ".quarantine-v1.".toList ++ toHex identifier.toList =
          ".tmp-v1.".toList ++ kind.word ++ ".".toList ++ toHex identifier'.toList := h
      rw [List.append_assoc, List.append_assoc] at h
      exact absurd h quarantine_ne_staging
  | staging kind identifier =>
    cases what' with
    | canonical => nomatch h
    | quarantine identifier' =>
      have h : ".tmp-v1.".toList ++ kind.word ++ ".".toList ++ toHex identifier.toList =
          ".quarantine-v1.".toList ++ toHex identifier'.toList := h
      rw [List.append_assoc, List.append_assoc] at h
      exact absurd h.symm quarantine_ne_staging
    | staging kind' identifier' =>
      have h : ".tmp-v1.".toList ++ kind.word ++ ".".toList ++ toHex identifier.toList =
          ".tmp-v1.".toList ++ kind'.word ++ ".".toList ++ toHex identifier'.toList := h
      rw [List.append_assoc, List.append_assoc, List.append_assoc (_ ++ _),
        List.append_assoc ".tmp-v1.".toList] at h
      obtain ⟨hword, hidentifier⟩ :=
        before_dot_inj (word_no_dot kind) (word_no_dot kind') (List.append_cancel_left h)
      rw [word_inj hword, hbytes hidentifier]

/-- **No two names are the same.** -/
theorem OwnedName.filename_inj {format format' : BlobFormatIdentity} {key key' : KeyHash}
    {what what' : OwnedName} (h : what.filename format key = what'.filename format' key') :
    format.filenameSuffix = format'.filenameSuffix ∧ key = key' ∧ what = what' := by
  rw [filename_eq, filename_eq] at h
  have hlen : (toHex key.toList).length = (toHex key'.toList).length :=
    (length_toHex_keyHash key).trans (length_toHex_keyHash key').symm
  obtain ⟨hkey, hrest⟩ := List.append_inj h hlen
  obtain ⟨hsuffix, htail⟩ := suffix_tail_inj what.afterSuffix what'.afterSuffix hrest
  exact ⟨hsuffix, Vector.toList_inj.mp (toHex_inj hkey), tail_inj htail⟩

/-- **Owned names are recognised exactly, and never collide.**  For all formats and keys: the stem of
    a canonical name is the digits of its key; the recogniser accepts the staging names of its suffix
    and nothing else, so of what a store names it accepts the staging files of the same suffix; and
    names with different parts are different. -/
theorem owned_names_exact (format format' : BlobFormatIdentity) (key key' : KeyHash) :
    fileStem (blobFilename format key) = some (toHex key.toList) ∧
    (∀ name, isOwnedTemporaryFilename name format.filenameSuffix = true ↔
      ∃ hash kind identifier, isDigest hash = true ∧ isDigest identifier = true ∧
        name = stagingFilename hash format.filenameSuffix kind identifier) ∧
    (∀ what : OwnedName,
      isOwnedTemporaryFilename (what.filename format key) format'.filenameSuffix = true ↔
        format.filenameSuffix = format'.filenameSuffix ∧
          ∃ kind identifier, what = .staging kind identifier) ∧
    ∀ what what' : OwnedName, what.filename format key = what'.filename format' key' ↔
      format.filenameSuffix = format'.filenameSuffix ∧ key = key' ∧ what = what' := by
  refine ⟨fileStem_blobFilename format key, isOwnedTemporaryFilename_iff format, fun what => ?_,
    fun what what' => ?_⟩
  · rw [isOwnedTemporaryFilename_iff]
    constructor
    · rintro ⟨hash, kind, identifier, hhash, -, hname⟩
      have hlen : (toHex key.toList).length = hash.length := by
        rw [isDigest, Bool.and_eq_true, beq_iff_eq] at hhash
        exact (length_toHex_keyHash key).trans hhash.1.symm
      rw [OwnedName.filename_eq, stagingFilename] at hname
      simp only [List.append_assoc] at hname
      obtain ⟨-, hrest⟩ := List.append_inj hname hlen
      obtain ⟨hsuffix, htail⟩ := suffix_tail_inj what.afterSuffix (Or.inr ⟨_, rfl⟩) hrest
      exact ⟨hsuffix, OwnedName.tail_staging htail⟩
    · rintro ⟨hsuffix, kind, identifier, rfl⟩
      exact ⟨toHex key.toList, kind, toHex identifier.toList, isDigest_toHex key,
        isDigest_toHex identifier, hsuffix ▸ rfl⟩
  · constructor
    · exact OwnedName.filename_inj
    · rintro ⟨hsuffix, rfl, rfl⟩
      rw [OwnedName.filename_eq, OwnedName.filename_eq, hsuffix]

end AtomicBlobStore
