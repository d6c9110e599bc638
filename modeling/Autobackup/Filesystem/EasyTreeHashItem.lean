import Autobackup.Filesystem.LastModifiedTimestamp

/-!
# Items of an easy tree

`EasyTreeHashItem` reads a line of the obsolete format, and writes it again.

A line comes back if it is that of a file with a hash and nothing but its colons is taken for
colons.  A directory keeps its slash when it is read and gets another when it is written, and
whether an item that was read without a hash has one is not said: `m_HasHash` is not initialised.

`m_HasHash` is read where it was never written, so its value is a parameter of the reader, and what
is said holds for both.  Left out are lines without a creation date.
-/

namespace Autobackup.Filesystem

open QString

/-- It is not checked that the input does not contain the output. -/
def generateStringNotInString_ButMakeSureTheOutputDoesntContainAcolon
    (_inputStringToCheckGeneratedOutputAgainst : Text) : Text :=
  ("DSOU23048^(#&*%&*(#((#__@*@**----262634847////slashesAreIllegalInFilenamesWoo///" ++
    "29345345$$%802308SDFLKJFKJLA*(#&Q$SD").toList

structure EasyTreeHashItem where
  relativeFilePath : Text
  isDirectory : Bool
  fileSize : ℤ
  /-- In milliseconds. -/
  creationDateTime : ℤ
  lastModifiedDateTime : ℤ
  hasHash : Bool
  hash : List UInt8
  absoluteReplacementFilePath : Text
  deriving DecidableEq

/-- The fields of a line, with the escaped colons. -/
def splitAtColons (lineOfText : Text) : List Text :=
  if colonEscaped <:+: lineOfText then
    let tempString := generateStringNotInString_ButMakeSureTheOutputDoesntContainAcolon lineOfText
    (splitSkippingEmptyParts ':' (replace colonEscaped tempString lineOfText)).map
      (replace tempString colon)
  else splitSkippingEmptyParts ':' lineOfText

/-- A date that was written in seconds. -/
def dateOfField (field : Text) : ℤ := (readLongLong (toLatin1 field) * 1000).bmod (2 ^ 64)

namespace EasyTreeHashItem

/-- A directory has no size. -/
def readFileSize (isDirectory : Bool) (fields : List Text) : Option ℤ :=
  if isDirectory then some (-1) else (fields[1]?).map fun field => readLongLong (toLatin1 field)

/-- There is no item if a field is missing that is read.  `uninitialized` is what `m_HasHash`
contains, where nothing has been written. -/
def ofFields (uninitialized : Bool) (absoluteReplacementFilePath : Text) (fields : List Text) :
    Option EasyTreeHashItem := do
  let relativeFilePath ← fields[0]?
  let isDirectory := detectIfFilePathIsDirectory relativeFilePath
  let fileSize ← readFileSize isDirectory fields
  let dynamicIndexForFilesAndDirectories := if isDirectory then 1 else 2
  let creationDateTime ← (fields[dynamicIndexForFilesAndDirectories]?).map dateOfField
  let lastModifiedDateTime ← (fields[dynamicIndexForFilesAndDirectories + 1]?).map dateOfField
  let item : EasyTreeHashItem :=
    ⟨relativeFilePath, isDirectory, fileSize, creationDateTime, lastModifiedDateTime, uninitialized,
      [], absoluteReplacementFilePath⟩
  if isDirectory = false ∧ 4 < fields.length then
    (fields[dynamicIndexForFilesAndDirectories + 2]?).map fun field =>
      { item with hasHash := true, hash := fromHex (toLatin1 field) }
  else some item

/-- `newEasyTreeHashItemFromLineOfText`, for lines that have a creation date. -/
def newEasyTreeHashItemFromLineOfText (uninitialized : Bool) (lineOfText : Text)
    (lineOfTextSuppliesAbsoluteReplacementFilePath : Bool) : Option EasyTreeHashItem :=
  if lineOfTextSuppliesAbsoluteReplacementFilePath then
    match splitAtColons lineOfText with
    | [] => none
    | absoluteReplacementFilePath :: fields =>
        ofFields uninitialized absoluteReplacementFilePath fields
  else ofFields uninitialized [] (splitAtColons lineOfText)

def toColonSeparatedLineOfText (item : EasyTreeHashItem) : Text :=
  replace colon colonEscaped item.relativeFilePath ++
    (if item.isDirectory then ['/'] else colon ++ number item.fileSize) ++
    (colon ++ number (item.creationDateTime.tdiv 1000)) ++
    (colon ++ number (item.lastModifiedDateTime.tdiv 1000)) ++
    (if item.hasHash then colon ++ toHex item.hash else [])

end EasyTreeHashItem

open EasyTreeHashItem

/-- The line is written again, and that is read again, whatever the memory contains.
`uninitialized` is what `m_HasHash` happens to be, which the reader does not set. -/
def RoundTrips (line : Text) (uninitialized : Bool) : Prop :=
  ∃ item, newEasyTreeHashItemFromLineOfText uninitialized line false = some item ∧
    item.toColonSeparatedLineOfText = line ∧
    ∀ uninitialized', newEasyTreeHashItemFromLineOfText uninitialized'
      item.toColonSeparatedLineOfText false = some item

/-! ## The fields of a line -/

variable {filePath line : Text} {fields : List Text}

def lineWith (filePath : Text) (fields : List Text) : Text :=
  substitute ':' colonEscaped filePath ++ fields.flatMap fun field => ':' :: field

/-- The placeholder, which does not depend on the line. -/
def temp : Text := generateStringNotInString_ButMakeSureTheOutputDoesntContainAcolon []

lemma temp_ne_nil : temp ≠ [] := by decide +kernel

lemma colon_not_mem_temp : ':' ∉ temp := by decide +kernel

lemma temp_eq_cons : temp = 'D' :: temp.tail := by decide +kernel

/-- A field that is not a path. -/
structure IsPlain (field : Text) : Prop where
  ne_nil : field ≠ []
  colon : ':' ∉ field
  backslash : '\\' ∉ field
  temp : 'D' ∉ field
  slash : field.getLast? ≠ some '/'

lemma isPlain_number (n : ℤ) : IsPlain (number n) where
  ne_nil := number_ne_nil
  colon := not_mem_number (by decide) (by decide)
  backslash := not_mem_number (by decide) (by decide)
  temp := not_mem_number (by decide) (by decide)
  slash := fun h => not_mem_number (by decide) (by decide) (List.mem_of_getLast? h)

lemma isPlain_toHex (hash : Md5Sum) : IsPlain (toHex hash.bytes) where
  ne_nil := by
    obtain ⟨bytes, hlength⟩ := hash
    cases bytes with
    | nil => exact absurd hlength (by decide)
    | cons byte bytes => exact List.cons_ne_nil _ _
  colon := not_mem_toHex (by decide)
  backslash := not_mem_toHex (by decide)
  temp := not_mem_toHex (by decide)
  slash := fun h => not_mem_toHex (by decide) (List.mem_of_getLast? h)

/-- The colons of the path are put back, if any were escaped. -/
def restored (filePath : Text) : Text :=
  if ':' ∈ filePath then replace temp colon (substitute ':' temp filePath) else filePath

lemma map_replace_fields (hfields : ∀ field ∈ fields, IsPlain field) :
    fields.map (replace temp colon) = fields := by
  refine (List.map_congr_left fun field hfield => ?_).trans (List.map_id fields)
  rw [temp_eq_cons]
  exact replace_of_not_mem (hfields field hfield).temp

lemma colon_not_mem_fields (hfields : ∀ field ∈ fields, IsPlain field) :
    ∀ field ∈ fields, ':' ∉ field ∧ field ≠ [] := fun field hfield =>
  ⟨(hfields field hfield).colon, (hfields field hfield).ne_nil⟩

lemma backslash_not_mem_fields (hfields : ∀ field ∈ fields, IsPlain field) :
    '\\' ∉ fields.flatMap fun field => ':' :: field := fun hmem => by
  obtain ⟨field, hfield, hc⟩ := List.mem_flatMap.1 hmem
  rcases List.mem_cons.1 hc with heq | hc
  · exact absurd heq (by decide)
  · exact (hfields field hfield).backslash hc

lemma splitAtColons_lineWith (hfilePath : filePath ≠ []) (hlast : filePath.getLast? ≠ some '\\')
    (hfields : ∀ field ∈ fields, IsPlain field) :
    splitAtColons (lineWith filePath fields) = restored filePath :: fields := by
  have hbackslash := backslash_not_mem_fields hfields
  by_cases hcolon : ':' ∈ filePath
  · have hpart : colonEscaped <:+: lineWith filePath fields := by
      obtain ⟨start, ending, rfl⟩ := List.append_of_mem hcolon
      rw [lineWith, substitute_append, substitute_cons_self]
      exact ⟨substitute ':' colonEscaped start, substitute ':' colonEscaped ending ++
        fields.flatMap fun field => ':' :: field, by simp⟩
    have hreplace : replace colonEscaped temp (lineWith filePath fields) =
        substitute ':' temp filePath ++ fields.flatMap fun field => ':' :: field := by
      rw [lineWith, colonEscaped, replace_escape (by decide) fun h => absurd h hlast,
        replace_of_not_mem hbackslash]
    have hnotMem : ':' ∉ substitute ':' temp filePath := not_mem_substitute colon_not_mem_temp
    have hsplit := splitSkippingEmptyParts_fields hnotMem
      (substitute_ne_nil temp_ne_nil hfilePath) (colon_not_mem_fields hfields)
    rw [splitAtColons, if_pos hpart]
    show (splitSkippingEmptyParts ':' (replace colonEscaped temp _)).map (replace temp colon) = _
    rw [hreplace, hsplit, List.map_cons, map_replace_fields hfields, restored, if_pos hcolon]
  · have hpart : ¬ colonEscaped <:+: lineWith filePath fields := by
      rw [lineWith, substitute_eq_self hcolon]
      exact not_escaped_infix hcolon hlast hbackslash
    rw [splitAtColons, if_neg hpart, lineWith, substitute_eq_self hcolon,
      splitSkippingEmptyParts_fields hcolon hfilePath (colon_not_mem_fields hfields), restored,
      if_neg hcolon]

/-- The first field becomes a part of a path that ends with a backslash. -/
lemma splitAtColons_lineWith_concat {field : Text} (hfield : IsPlain field)
    (hfields : ∀ field ∈ fields, IsPlain field) :
    (splitAtColons (lineWith (filePath ++ ['\\']) (field :: fields))).length =
      fields.length + 1 := by
  have hbackslash := backslash_not_mem_fields hfields
  have hline : lineWith (filePath ++ ['\\']) (field :: fields) =
      substitute ':' colonEscaped (filePath ++ ['\\']) ++
        ':' :: (field ++ fields.flatMap fun field => ':' :: field) := by
    rw [lineWith, List.flatMap_cons, List.cons_append]
  have hpart : colonEscaped <:+: lineWith (filePath ++ ['\\']) (field :: fields) := by
    rw [hline, substitute_append]
    exact ⟨substitute ':' colonEscaped filePath,
      field ++ fields.flatMap fun field => ':' :: field, by simp [substitute, colonEscaped]⟩
  have hrest : '\\' ∉ field ++ fields.flatMap fun field => ':' :: field := by
    rw [List.mem_append, not_or]
    exact ⟨hfield.backslash, hbackslash⟩
  have hreplace : replace colonEscaped temp (lineWith (filePath ++ ['\\']) (field :: fields)) =
      (substitute ':' temp filePath ++ (temp ++ field)) ++
        fields.flatMap fun field => ':' :: field := by
    rw [hline, colonEscaped, replace_escape_concat (by decide), replace_of_not_mem hrest]
    simp
  have hcolon : ':' ∉ substitute ':' temp filePath ++ (temp ++ field) := by
    rw [List.mem_append, List.mem_append, not_or, not_or]
    exact ⟨not_mem_substitute colon_not_mem_temp, colon_not_mem_temp, hfield.colon⟩
  have hne : substitute ':' temp filePath ++ (temp ++ field) ≠ [] :=
    List.append_ne_nil_of_right_ne_nil _ (List.append_ne_nil_of_left_ne_nil temp_ne_nil _)
  rw [splitAtColons, if_pos hpart]
  show ((splitSkippingEmptyParts ':' (replace colonEscaped temp _)).map _).length = _
  rw [hreplace, splitSkippingEmptyParts_fields hcolon hne (colon_not_mem_fields hfields),
    List.length_map, List.length_cons]

/-! ## Reading and writing -/

variable {uninitialized : Bool} {absoluteReplacementFilePath : Text} {item : EasyTreeHashItem}

lemma toLatin1_eq_self (h : ∀ c ∈ line, c.toNat < 256) : toLatin1 line = line :=
  (List.map_congr_left fun c hc => if_pos (h c hc)).trans (List.map_id line)

lemma toLatin1_number (n : ℤ) : toLatin1 (number n) = number n :=
  toLatin1_eq_self fun c hc => by
    rcases isDigit_of_mem_number hc with hdigit | rfl
    · simp only [Char.isDigit, Bool.and_eq_true, decide_eq_true_eq] at hdigit
      have hupper : c.toNat ≤ 57 := hdigit.2
      omega
    · decide

lemma toLatin1_toHex (bytes : List UInt8) : toLatin1 (toHex bytes) = toHex bytes :=
  toLatin1_eq_self fun c hc => by
    obtain ⟨n, hn, rfl⟩ := mem_toHex hc
    have hall : ∀ n < 16, n.digitChar.toNat < 256 := by decide
    exact hall n hn

lemma tdiv_cases (n : ℤ) :
    0 ≤ n ∧ n.tdiv 1000 = n / 1000 ∨ n < 0 ∧ n.tdiv 1000 = -(-n / 1000) := by
  by_cases hn : 0 ≤ n
  · exact .inl ⟨hn, Int.tdiv_eq_ediv_of_nonneg hn⟩
  · refine .inr ⟨by omega, ?_⟩
    have hneg : (-n).tdiv 1000 = -n / 1000 := Int.tdiv_eq_ediv_of_nonneg (by omega)
    rw [Int.neg_tdiv] at hneg
    omega

lemma isLongLong_tdiv {n : ℤ} (h : IsLongLong n) : IsLongLong (n.tdiv 1000) := by
  unfold IsLongLong at h ⊢
  rcases tdiv_cases n with ⟨_, heq⟩ | ⟨_, heq⟩ <;> omega

/-- Only the seconds of a date are written. -/
lemma dateOfField_number {n : ℤ} (h : IsLongLong n) :
    dateOfField (number (n.tdiv 1000)) = n.tdiv 1000 * 1000 := by
  rw [dateOfField, toLatin1_number, readLongLong_number (isLongLong_tdiv h)]
  unfold IsLongLong at h
  rcases tdiv_cases n with ⟨_, heq⟩ | ⟨_, heq⟩
  · exact Int.bmod_eq_of_le (by omega) (by omega)
  · exact Int.bmod_eq_of_le (by omega) (by omega)

/-- Nothing is known of a hash that was not read. -/
lemma ofFields_short {fields : List Text} (hlength : fields.length ≤ 4)
    (h : ofFields true absoluteReplacementFilePath fields = some item) :
    item.hasHash = true ∧ item.hash = [] := by
  have hshort : ∀ isDirectory, ¬ (isDirectory = false ∧ 4 < fields.length) := fun _ hlong => by
    omega
  simp only [ofFields, if_neg (hshort _), Option.bind_eq_bind, Option.bind_eq_some_iff] at h
  obtain ⟨_, -, _, -, _, -, _, -, hitem⟩ := h
  exact Option.some_inj.1 hitem ▸ ⟨rfl, rfl⟩

lemma getLast?_toColonSeparatedLineOfText (h : item.hasHash = true ∧ item.hash = []) :
    item.toColonSeparatedLineOfText.getLast? = some ':' := by
  have hcolon : colon ++ toHex item.hash = [':'] := by
    rw [h.2]
    rfl
  rw [toColonSeparatedLineOfText, if_pos h.1, hcolon]
  exact List.getLast?_concat

lemma getLast?_lineWith {field : Text} (hfield : IsPlain field) :
    (lineWith filePath (fields ++ [field])).getLast? ≠ some ':' := by
  obtain ⟨start, c, hc⟩ := (List.eq_nil_or_concat field).resolve_left hfield.ne_nil
  rw [List.concat_eq_append] at hc
  have hline : lineWith filePath (fields ++ [field]) =
      (lineWith filePath fields ++ ':' :: start) ++ [c] := by
    simp [lineWith, hc]
  rw [hline, List.getLast?_concat]
  rintro heq
  refine hfield.colon ?_
  rw [hc, Option.some_inj.1 heq]
  exact List.mem_concat_self

/-- A line that would lack a hash is not written again. -/
lemma not_roundTrips_of_short {field : Text} (hfield : IsPlain field)
    (hlength : (splitAtColons (lineWith filePath (fields ++ [field]))).length ≤ 4) :
    ¬ RoundTrips (lineWith filePath (fields ++ [field])) true := by
  rintro ⟨item, hitem, hline, -⟩
  have hlast := getLast?_toColonSeparatedLineOfText (ofFields_short hlength hitem)
  rw [hline] at hlast
  exact getLast?_lineWith hfield hlast

/-! ## Lines of files -/

variable {chopLength : ℕ} {info : FileInfo} {calculateMd5Sums : CalculateMd5Enum}

/-- The hash of a line, if it has one. -/
def hashOf (calculateMd5Sums : CalculateMd5Enum) (info : FileInfo) : Option Md5Sum :=
  if calculateMd5Sums = .doCalculateMd5sums then info.md5 else none

def numbersOf (info : FileInfo) : List Text :=
  [number info.size, number (info.created.tdiv 1000), number (info.lastModified.tdiv 1000)]

lemma isPlain_numbersOf : ∀ field ∈ numbersOf info, IsPlain field := by
  intro field hfield
  simp only [numbersOf, List.mem_cons, List.not_mem_nil, or_false] at hfield
  rcases hfield with rfl | rfl | rfl <;> exact isPlain_number _

lemma addFileEntry_obsolete_eq :
    addFileEntry chopLength .obsoleteEasyTreeTimestampsWithSizeAndCreationDate calculateMd5Sums
        info =
      lineWith (info.relativePath chopLength) (numbersOf info ++
        ((hashOf calculateMd5Sums info).map fun hash => toHex hash.bytes).toList) := by
  by_cases hmd5 : calculateMd5Sums = .doCalculateMd5sums
  · cases hhash : info.md5 with
    | none =>
        simp [addFileEntry, lineWith, numbersOf, hashOf, replace_singleton, hmd5, hhash, colon]
    | some hash =>
        simp [addFileEntry, lineWith, numbersOf, hashOf, replace_singleton, hmd5, hhash, colon]
  · simp [addFileEntry, lineWith, numbersOf, hashOf, replace_singleton, hmd5, colon]

lemma addDirEntry_obsolete_eq :
    addDirEntry chopLength .obsoleteEasyTreeTimestampsWithSizeAndCreationDate info =
      lineWith (info.relativePath chopLength ++ ['/'])
        [number (info.created.tdiv 1000), number (info.lastModified.tdiv 1000)] := by
  have hslash : substitute ':' colonEscaped ['/'] = ['/'] := substitute_eq_self (by decide)
  simp [addDirEntry, lineWith, replace_singleton, hslash, colon]

/-- What is read of a line with all fields. -/
def fileItem (filePath : Text) (info : FileInfo) (hash : Md5Sum) : EasyTreeHashItem where
  relativeFilePath := filePath
  isDirectory := false
  fileSize := info.size
  creationDateTime := info.created.tdiv 1000 * 1000
  lastModifiedDateTime := info.lastModified.tdiv 1000 * 1000
  hasHash := true
  hash := hash.bytes
  absoluteReplacementFilePath := []

lemma ofFields_file {hash : Md5Sum} (hslash : filePath.getLast? ≠ some '/') :
    ofFields uninitialized [] (filePath :: (numbersOf info ++ [toHex hash.bytes])) =
      some (fileItem filePath info hash) := by
  have hdetect : detectIfFilePathIsDirectory filePath = false := decide_eq_false hslash
  have hsize : readLongLong (toLatin1 (number info.size)) = info.size := by
    rw [toLatin1_number, readLongLong_number info.isLongLong_size]
  have hhash : fromHex (toLatin1 (toHex hash.bytes)) = hash.bytes := by
    rw [toLatin1_toHex, fromHex_toHex]
  simp [ofFields, readFileSize, numbersOf, fileItem, hdetect, hsize, hhash,
    dateOfField_number info.isLongLong_created, dateOfField_number info.isLongLong_lastModified]

lemma toColonSeparatedLineOfText_fileItem {hash : Md5Sum} :
    (fileItem filePath info hash).toColonSeparatedLineOfText =
      lineWith filePath (numbersOf info ++ [toHex hash.bytes]) := by
  have hcreated : (info.created.tdiv 1000 * 1000).tdiv 1000 = info.created.tdiv 1000 :=
    Int.mul_tdiv_cancel _ (by decide)
  have hmodified : (info.lastModified.tdiv 1000 * 1000).tdiv 1000 =
      info.lastModified.tdiv 1000 := Int.mul_tdiv_cancel _ (by decide)
  simp [toColonSeparatedLineOfText, fileItem, lineWith, numbersOf, replace_singleton, colon,
    hcreated, hmodified]

lemma getLast?_restored (hslash : filePath.getLast? ≠ some '/') :
    (restored filePath).getLast? ≠ some '/' := by
  rw [restored]
  split
  · refine getLast?_replace temp_ne_nil (List.cons_ne_nil _ _) (by decide) fun hlast => ?_
    rw [← replace_singleton] at hlast
    exact getLast?_replace (List.cons_ne_nil _ _) temp_ne_nil (by decide +kernel) hslash hlast
  · exact hslash

lemma lineWith_left_injective {filePath' : Text}
    (h : lineWith filePath fields = lineWith filePath' fields) : filePath = filePath' :=
  substitute_escape_injective (by decide) (List.append_cancel_right h)

/-- The exact condition for the path of a file. -/
def PathComesBack (filePath : Text) : Prop :=
  filePath.getLast? ≠ some '\\' ∧ (':' ∈ filePath → Recoverable ':' temp filePath)

lemma restored_eq_iff : restored filePath = filePath ↔
    (':' ∈ filePath → Recoverable ':' temp filePath) := by
  rw [restored]
  split
  · next hcolon =>
      rw [colon, replace_substitute_eq_iff temp_ne_nil]
      exact ⟨fun h _ => h, fun h => h hcolon⟩
  · next hcolon => exact iff_of_true rfl fun h => absurd h hcolon

lemma roundTrips_of_hash {hash : Md5Sum} (hne : filePath ≠ [])
    (hslash : filePath.getLast? ≠ some '/') (hlast : filePath.getLast? ≠ some '\\') :
    RoundTrips (lineWith filePath (numbersOf info ++ [toHex hash.bytes])) uninitialized ↔
      restored filePath = filePath := by
  have hplain : ∀ field ∈ numbersOf info ++ [toHex hash.bytes], IsPlain field := by
    intro field hfield
    rcases List.mem_append.1 hfield with hfield | hfield
    · exact isPlain_numbersOf field hfield
    · exact List.mem_singleton.1 hfield ▸ isPlain_toHex hash
  have hread : ∀ uninitialized, newEasyTreeHashItemFromLineOfText uninitialized
      (lineWith filePath (numbersOf info ++ [toHex hash.bytes])) false =
        some (fileItem (restored filePath) info hash) := fun uninitialized => by
    rw [newEasyTreeHashItemFromLineOfText, if_neg (by decide),
      splitAtColons_lineWith hne hlast hplain, ofFields_file (getLast?_restored hslash)]
  constructor
  · rintro ⟨item, hitem, hline, -⟩
    obtain rfl := Option.some_inj.1 ((hread uninitialized).symm.trans hitem)
    rw [toColonSeparatedLineOfText_fileItem] at hline
    exact lineWith_left_injective hline
  · intro hrestored
    refine ⟨fileItem filePath info hash, ?_, toColonSeparatedLineOfText_fileItem, ?_⟩
    · rw [hread, hrestored]
    · intro uninitialized'
      rw [toColonSeparatedLineOfText_fileItem, hread, hrestored]

lemma roundTrips_addFileEntry_iff (hne : info.relativePath chopLength ≠ [])
    (hslash : (info.relativePath chopLength).getLast? ≠ some '/') :
    (∀ uninitialized, RoundTrips (addFileEntry chopLength
      .obsoleteEasyTreeTimestampsWithSizeAndCreationDate calculateMd5Sums info) uninitialized) ↔
      hashOf calculateMd5Sums info ≠ none ∧ PathComesBack (info.relativePath chopLength) := by
  rw [addFileEntry_obsolete_eq]
  have hnumbers : numbersOf info =
      [number info.size, number (info.created.tdiv 1000)] ++
        [number (info.lastModified.tdiv 1000)] := rfl
  cases hhash : hashOf calculateMd5Sums info with
  | none =>
      refine iff_of_false (fun h => ?_) fun h => h.1 rfl
      have hline := h true
      rw [Option.map_none, Option.toList_none, List.append_nil, hnumbers] at hline
      refine not_roundTrips_of_short (isPlain_number _) ?_ hline
      rw [← hnumbers]
      by_cases hlast : (info.relativePath chopLength).getLast? = some '\\'
      · obtain ⟨start, hstart⟩ := List.getLast?_eq_some_iff.1 hlast
        rw [hstart, numbersOf, splitAtColons_lineWith_concat (isPlain_number _)
          (fun field hfield => isPlain_numbersOf field (List.mem_cons_of_mem _ hfield))]
        exact Nat.le_succ 3
      · rw [splitAtColons_lineWith hne hlast isPlain_numbersOf]
        exact le_refl 4
  | some hash =>
      rw [Option.map_some, Option.toList_some, PathComesBack]
      by_cases hlast : (info.relativePath chopLength).getLast? = some '\\'
      · refine iff_of_false (fun h => ?_) fun h => h.2.1 hlast
        obtain ⟨start, hstart⟩ := List.getLast?_eq_some_iff.1 hlast
        refine not_roundTrips_of_short (isPlain_toHex hash) ?_ (h true)
        have hfields : numbersOf info ++ [toHex hash.bytes] = number info.size ::
            [number (info.created.tdiv 1000), number (info.lastModified.tdiv 1000),
              toHex hash.bytes] := rfl
        rw [hstart, hfields, splitAtColons_lineWith_concat (isPlain_number _)]
        · exact le_refl 4
        · intro field hfield
          simp only [List.mem_cons, List.not_mem_nil, or_false] at hfield
          rcases hfield with rfl | rfl | rfl
          · exact isPlain_number _
          · exact isPlain_number _
          · exact isPlain_toHex hash
      · have hall : (∀ uninitialized, RoundTrips (lineWith (info.relativePath chopLength)
            (numbersOf info ++ [toHex hash.bytes])) uninitialized) ↔
              restored (info.relativePath chopLength) = info.relativePath chopLength :=
          ⟨fun h => (roundTrips_of_hash hne hslash hlast).1 (h true),
            fun h _ => (roundTrips_of_hash hne hslash hlast).2 h⟩
        rw [hall, restored_eq_iff]
        exact ⟨fun h => ⟨Option.some_ne_none _, hlast, h⟩, fun h => h.2.2⟩

/-! ## Lines of directories -/

/-- A directory that is read keeps its slash. -/
lemma ofFields_directory {directoryPath : Text} (hslash : directoryPath.getLast? = some '/') :
    ofFields uninitialized [] [directoryPath, number (info.created.tdiv 1000),
        number (info.lastModified.tdiv 1000)] =
      some { relativeFilePath := directoryPath
             isDirectory := true
             fileSize := -1
             creationDateTime := info.created.tdiv 1000 * 1000
             lastModifiedDateTime := info.lastModified.tdiv 1000 * 1000
             hasHash := uninitialized
             hash := []
             absoluteReplacementFilePath := [] } := by
  have hdetect : detectIfFilePathIsDirectory directoryPath = true := decide_eq_true hslash
  simp [ofFields, readFileSize, hdetect, dateOfField_number info.isLongLong_created,
    dateOfField_number info.isLongLong_lastModified]

/-- A file would have a field more. -/
lemma ofFields_missing {field field' : Text} (hslash : filePath.getLast? ≠ some '/') :
    ofFields uninitialized absoluteReplacementFilePath [filePath, field, field'] = none := by
  have hdetect : detectIfFilePathIsDirectory filePath = false := decide_eq_false hslash
  simp [ofFields, readFileSize, hdetect]

lemma not_roundTrips_addDirEntry (hslash : (info.relativePath chopLength).getLast? ≠ some '/') :
    ¬ RoundTrips (addDirEntry chopLength .obsoleteEasyTreeTimestampsWithSizeAndCreationDate info)
      uninitialized := by
  rw [addDirEntry_obsolete_eq]
  have hplain : ∀ field ∈ [number (info.created.tdiv 1000),
      number (info.lastModified.tdiv 1000)], IsPlain field := by
    intro field hfield
    exact isPlain_numbersOf field (List.mem_cons_of_mem _ hfield)
  have hlast : (info.relativePath chopLength ++ ['/']).getLast? ≠ some '\\' := by
    rw [List.getLast?_concat]
    decide
  rintro ⟨item, hitem, hline, -⟩
  rw [newEasyTreeHashItemFromLineOfText, if_neg (by decide),
    splitAtColons_lineWith (List.append_ne_nil_of_right_ne_nil _ (List.cons_ne_nil _ _)) hlast
      hplain] at hitem
  by_cases hdirectory : (restored (info.relativePath chopLength ++ ['/'])).getLast? = some '/'
  · rw [ofFields_directory hdirectory, Option.some_inj] at hitem
    cases uninitialized with
    | true =>
        have hhash : item.hasHash = true ∧ item.hash = [] := hitem ▸ ⟨rfl, rfl⟩
        have hcolon := getLast?_toColonSeparatedLineOfText hhash
        have hplainLast : (lineWith (info.relativePath chopLength ++ ['/'])
            ([number (info.created.tdiv 1000)] ++
              [number (info.lastModified.tdiv 1000)])).getLast? ≠
              some ':' := getLast?_lineWith (isPlain_number _)
        rw [hline] at hcolon
        exact hplainLast hcolon
    | false =>
        have hcreated : (info.created.tdiv 1000 * 1000).tdiv 1000 = info.created.tdiv 1000 :=
          Int.mul_tdiv_cancel _ (by decide)
        have hmodified : (info.lastModified.tdiv 1000 * 1000).tdiv 1000 =
            info.lastModified.tdiv 1000 := Int.mul_tdiv_cancel _ (by decide)
        have hesc : substitute ':' colonEscaped ['/'] = ['/'] := substitute_eq_self (by decide)
        -- the slash is written behind the one that was kept
        have hwritten : item.toColonSeparatedLineOfText =
            lineWith (restored (info.relativePath chopLength ++ ['/']) ++ ['/'])
              [number (info.created.tdiv 1000), number (info.lastModified.tdiv 1000)] := by
          rw [← hitem]
          simp [toColonSeparatedLineOfText, lineWith, replace_singleton, colon, hcreated,
            hmodified, hesc]
        have hpath := lineWith_left_injective (hwritten.symm.trans hline)
        rw [List.append_cancel_right hpath] at hdirectory
        exact hslash hdirectory
  · rw [ofFields_missing hdirectory] at hitem
    exact Option.some_ne_none _ hitem.symm

/-- **A line comes back exactly if it is that of a file with a hash, and the path comes back.**  No
canonical path ends with a slash.

The first half is about files and the second one about directories, none of which comes back.  A
path comes back if the reader undoes the escaping of its colons, for which it has a text that it
puts in their place meanwhile. -/
theorem roundTrips_iff (chopLength : ℕ) (calculateMd5Sums : CalculateMd5Enum) (info : FileInfo)
    (hne : info.relativePath chopLength ≠ [])
    (hslash : (info.relativePath chopLength).getLast? ≠ some '/') :
    ((∀ uninitialized, RoundTrips (addFileEntry chopLength
        .obsoleteEasyTreeTimestampsWithSizeAndCreationDate calculateMd5Sums info) uninitialized) ↔
      hashOf calculateMd5Sums info ≠ none ∧ PathComesBack (info.relativePath chopLength)) ∧
    ∀ uninitialized, ¬ RoundTrips (addDirEntry chopLength
      .obsoleteEasyTreeTimestampsWithSizeAndCreationDate info) uninitialized :=
  ⟨roundTrips_addFileEntry_iff hne hslash, fun _ => not_roundTrips_addDirEntry hslash⟩

/-- An empty file. -/
def emptyNotes : FileInfo where
  canonicalFilePath := "/home/notes: old".toList
  size := 0
  created := 1000
  lastModified := 2000
  md5 := some ⟨[0xd4, 0x1d, 0x8c, 0xd9, 0x8f, 0x00, 0xb2, 0x04, 0xe9, 0x80, 0x09, 0x98, 0xec, 0xf8,
    0x42, 0x7e], rfl⟩
  isLongLong_size := by decide
  isLongLong_created := by decide
  isLongLong_lastModified := by decide

theorem roundTrips_iff_emptyNotes : RoundTrips (addFileEntry 6
    .obsoleteEasyTreeTimestampsWithSizeAndCreationDate .doCalculateMd5sums emptyNotes) true :=
  (roundTrips_iff 6 .doCalculateMd5sums emptyNotes (by decide) (by decide)).1.2
    ⟨by decide, by decide, fun _ => temp_eq_cons ▸ recoverable_of_not_mem (by decide)⟩ true

def photos : FileInfo where
  canonicalFilePath := "/home/photos".toList
  size := 4096
  created := 1000
  lastModified := 2000
  md5 := none
  isLongLong_size := by decide
  isLongLong_created := by decide
  isLongLong_lastModified := by decide

/-- A directory gets another slash. -/
theorem addDirEntry_photos :
    addDirEntry 6 .obsoleteEasyTreeTimestampsWithSizeAndCreationDate photos =
      "photos/:1:2".toList ∧
    (newEasyTreeHashItemFromLineOfText false "photos/:1:2".toList false).map
        toColonSeparatedLineOfText =
      some "photos//:1:2".toList := by decide +kernel

end Autobackup.Filesystem
