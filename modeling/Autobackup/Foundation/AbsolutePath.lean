import Autobackup.Foundation.Escaping
import Mathlib.Data.List.Infix

/-!
# Absolute paths

A clean absolute path is the list of the names on it.  `QDir::absolutePath` and
`QFileInfo::absoluteFilePath` make one of the text that a path is given by, which may be relative to
the working directory and need not be clean.

A text that, with a slash appended, is in front of a clean absolute path is one itself, unless it is
empty (`withSlash_absolute`).
-/

namespace Autobackup

open QString

/-- A name that a directory can have an entry of. -/
def IsName (name : Text) : Prop :=
  name ≠ [] ∧ '/' ∉ name ∧ name ≠ ['.'] ∧ name ≠ ['.', '.']

instance (name : Text) : Decidable (IsName name) := inferInstanceAs (Decidable (_ ∧ _))

structure AbsolutePath where
  names : List Text
  isName : ∀ name ∈ names, IsName name

namespace AbsolutePath

lemma isName_nil : ∀ name ∈ ([] : List Text), IsName name := fun _ h => absurd h List.not_mem_nil

/-- The root of the file system. -/
def fileSystemRoot : AbsolutePath := ⟨[], isName_nil⟩

def joinNames (names : List Text) : Text := names.flatMap fun name => '/' :: name

/-- The text of the path, which ends with a slash for the root only. -/
def text (p : AbsolutePath) : Text :=
  if p.names = [] then ['/'] else joinNames p.names

def withSlash (p : AbsolutePath) : Text := joinNames p.names ++ ['/']

/-- One more name on the way. -/
def enter (names : List Text) (name : Text) : List Text :=
  if name = [] ∨ name = ['.'] then names
  else if name = ['.', '.'] then names.dropLast
  else names ++ [name]

lemma isName_enter {names : List Text} {name : Text} (h : ∀ n ∈ names, IsName n)
    (hslash : '/' ∉ name) : ∀ n ∈ enter names name, IsName n := by
  intro n hn
  rw [enter] at hn
  split_ifs at hn with hskip hup
  · exact h n hn
  · exact h n (List.mem_of_mem_dropLast hn)
  · rcases List.mem_append.1 hn with hn | hn
    · exact h n hn
    · rw [not_or] at hskip
      exact List.mem_singleton.1 hn ▸ ⟨hskip.1, hslash, hskip.2, hup⟩

lemma isName_foldl_enter {names path : List Text} (h : ∀ n ∈ names, IsName n)
    (hslash : ∀ name ∈ path, '/' ∉ name) : ∀ n ∈ path.foldl enter names, IsName n := by
  induction path generalizing names with
  | nil => exact h
  | cons name path ih =>
      obtain ⟨hname, hpath⟩ := List.forall_mem_cons.1 hslash
      exact ih (isName_enter h hname) hpath

lemma slash_not_mem_split (path : Text) :
    ∀ name ∈ splitSkippingEmptyParts '/' path, '/' ∉ name := fun name hname hslash =>
  (mem_splitOn name (List.mem_of_mem_filter hname) '/' hslash).2 rfl

/-- `QDir::absolutePath` and `QFileInfo::absoluteFilePath` -/
def absolute (workingDirectory : AbsolutePath) (path : Text) : AbsolutePath where
  names := (splitSkippingEmptyParts '/' path).foldl enter
    (if path.head? = some '/' then [] else workingDirectory.names)
  isName := by
    refine isName_foldl_enter ?_ (slash_not_mem_split path)
    split_ifs
    · exact fun _ h => absurd h List.not_mem_nil
    · exact workingDirectory.isName

lemma names_absolute (workingDirectory : AbsolutePath) (path : Text) :
    (absolute workingDirectory path).names = (splitSkippingEmptyParts '/' path).foldl enter
      (if path.head? = some '/' then [] else workingDirectory.names) := rfl

variable {p : AbsolutePath} {names : List Text} {path : Text}

lemma split_joinNames (hnames : ∀ name ∈ names, IsName name) :
    splitSkippingEmptyParts '/' (joinNames names) = names := by
  cases names with
  | nil => rfl
  | cons name names =>
      obtain ⟨hname, hrest⟩ := List.forall_mem_cons.1 hnames
      rw [joinNames, List.flatMap_cons, List.cons_append, splitSkippingEmptyParts_cons_self]
      exact splitSkippingEmptyParts_fields hname.2.1 hname.1 fun field hfield =>
        ⟨(hrest field hfield).2.1, (hrest field hfield).1⟩

lemma split_append (rest : Text) :
    splitSkippingEmptyParts '/' (path ++ '/' :: rest) =
      splitSkippingEmptyParts '/' path ++ splitSkippingEmptyParts '/' rest := by
  rw [splitSkippingEmptyParts, List.splitOn_append_cons_self, List.filter_append,
    ← splitSkippingEmptyParts, ← splitSkippingEmptyParts]

lemma split_concat :
    splitSkippingEmptyParts '/' (path ++ ['/']) = splitSkippingEmptyParts '/' path := by
  rw [split_append]
  exact List.append_nil _

lemma split_withSlash (hnames : ∀ name ∈ names, IsName name) :
    splitSkippingEmptyParts '/' (joinNames names ++ ['/']) = names := by
  rw [split_concat, split_joinNames hnames]

lemma foldl_enter {front : List Text} (hnames : ∀ name ∈ names, IsName name) :
    names.foldl enter front = front ++ names := by
  induction names generalizing front with
  | nil => exact (List.append_nil _).symm
  | cons name names ih =>
      obtain ⟨⟨hne, -, hdot, hup⟩, hrest⟩ := List.forall_mem_cons.1 hnames
      rw [List.foldl_cons, ih hrest, enter, if_neg (not_or.2 ⟨hne, hdot⟩), if_neg hup,
        List.append_assoc, List.singleton_append]

/-! ### Lengths -/

lemma joinNames_cons (name : Text) : joinNames (name :: names) = '/' :: (name ++ joinNames names) :=
  rfl

lemma joinNames_append (front : List Text) :
    joinNames (front ++ names) = joinNames front ++ joinNames names :=
  List.flatMap_append

lemma joinNames_splitOn (text : Text) : joinNames (text.splitOn '/') = '/' :: text := by
  by_cases h : '/' ∈ text
  · obtain ⟨name, rest, rfl, hname⟩ := List.eq_append_cons_of_mem h
    have hlength : rest.length < (name ++ '/' :: rest).length := by simp; omega
    rw [List.splitOn_append_cons_self_of_not_mem hname, joinNames_cons, joinNames_splitOn rest]
  · rw [List.splitOn_eq_singleton h]
    exact congrArg _ (List.append_nil text)
termination_by text.length

lemma length_joinNames_filter (names : List Text) :
    (joinNames (names.filter (· ≠ []))).length ≤ (joinNames names).length := by
  induction names with
  | nil => rfl
  | cons name names ih =>
      rw [List.filter_cons]
      split <;> simp only [joinNames_cons, List.length_cons, List.length_append] <;> omega

lemma length_joinNames_dropLast (names : List Text) :
    (joinNames names.dropLast).length ≤ (joinNames names).length := by
  cases names using List.reverseRecOn with
  | nil => rfl
  | append_singleton front name =>
      rw [List.dropLast_concat, joinNames_append, List.length_append]
      exact Nat.le_add_right _ _

lemma length_joinNames_foldl_enter (front parts : List Text) :
    (joinNames (parts.foldl enter front)).length ≤
      (joinNames front).length + (joinNames parts).length := by
  induction parts generalizing front with
  | nil => exact Nat.le_add_right _ _
  | cons part parts ih =>
      have henter : (joinNames (enter front part)).length ≤
          (joinNames front).length + 1 + part.length := by
        rw [enter]
        split_ifs
        · omega
        · have hdropLast := length_joinNames_dropLast front
          omega
        · rw [joinNames_append, List.length_append, joinNames_cons, List.length_cons,
            List.length_append]
          exact le_of_eq (by simp [joinNames]; omega)
      have hrest := ih (enter front part)
      rw [List.foldl_cons, joinNames_cons, List.length_cons, List.length_append]
      omega

/-- What is in front of a slash of a clean path. -/
lemma eq_joinNames_of_isPrefix (hnames : ∀ name ∈ names, IsName name)
    (h : path ++ ['/'] <+: joinNames names) :
    ∃ front, path = joinNames front ∧ front <+: names := by
  induction names generalizing path with
  | nil => exact absurd (List.prefix_nil.1 h) (by simp)
  | cons name names ih =>
      obtain ⟨hname, hrest⟩ := List.forall_mem_cons.1 hnames
      cases path with
      | nil => exact ⟨[], rfl, List.nil_prefix⟩
      | cons c path =>
          rw [joinNames, List.flatMap_cons, List.cons_append, List.cons_append,
            List.cons_prefix_cons] at h
          obtain ⟨rfl, h⟩ := h
          -- The slash stands behind the name.
          have hlength : name.length ≤ path.length := by
            by_contra hlt
            have hpart : path ++ ['/'] <+: name :=
              List.prefix_of_prefix_length_le h (List.prefix_append _ _) (by simp; omega)
            exact hname.2.1 (hpart.subset (by simp))
          obtain ⟨rest, rfl⟩ : name <+: path :=
            List.prefix_of_prefix_length_le (List.prefix_append _ _)
              ((List.prefix_append path ['/']).trans h) hlength
          rw [List.append_assoc, List.prefix_append_right_inj] at h
          obtain ⟨front, hfront, hpre⟩ := ih hrest h
          exact ⟨name :: front, by rw [hfront]; simp [joinNames],
            List.cons_prefix_cons.2 ⟨rfl, hpre⟩⟩

/-- No name is empty. -/
lemma not_slashes_infix (hnames : ∀ name ∈ names, IsName name) :
    ¬ ['/', '/'] <:+: joinNames names := by
  rintro ⟨front, back, h⟩
  rw [List.append_assoc] at h
  have hfront : front ++ ['/'] <+: joinNames names := ⟨'/' :: back, by rw [← h]; simp⟩
  obtain ⟨above, rfl, rest, rfl⟩ := eq_joinNames_of_isPrefix hnames hfront
  rw [joinNames_append] at h
  have hrest := List.append_cancel_left h
  cases rest with
  | nil => exact absurd hrest (List.cons_ne_nil _ _)
  | cons name rest =>
      obtain ⟨hne, hslash, -⟩ := hnames name (List.mem_append_right _ List.mem_cons_self)
      rw [joinNames_cons] at hrest
      have htail := (List.cons_eq_cons.1 hrest).2
      cases name with
      | nil => exact hne rfl
      | cons c name =>
          rw [List.cons_append] at htail
          exact hslash ((List.cons_eq_cons.1 htail).1 ▸ List.mem_cons_self)

lemma length_joinNames_split (path : Text) :
    (joinNames (splitSkippingEmptyParts '/' path)).length ≤ path.length + 1 := by
  have hfilter := length_joinNames_filter (path.splitOn '/')
  rw [joinNames_splitOn, List.length_cons] at hfilter
  exact hfilter

end AbsolutePath

def appendSlashIfNeeded (inputString : Text) : Text :=
  if inputString.getLast? = some '/' then inputString else inputString ++ ['/']

namespace AbsolutePath

variable {p workingDirectory : AbsolutePath} {dir : Text}

lemma exists_appendSlashIfNeeded (dir : Text) :
    ∃ path, appendSlashIfNeeded dir = path ++ ['/'] := by
  rw [appendSlashIfNeeded]
  split_ifs with hlast
  · obtain ⟨path, hpath⟩ := List.getLast?_eq_some_iff.1 hlast
    exact ⟨path, hpath⟩
  · exact ⟨dir, rfl⟩

lemma split_appendSlashIfNeeded :
    splitSkippingEmptyParts '/' (appendSlashIfNeeded dir) = splitSkippingEmptyParts '/' dir := by
  rw [appendSlashIfNeeded]
  split_ifs
  · rfl
  · exact split_concat

/-- To clean a path makes it no longer. -/
lemma length_withSlash_absolute (hdir : dir.head? = some '/') :
    (absolute workingDirectory dir).withSlash.length ≤ (appendSlashIfNeeded dir).length := by
  obtain ⟨path, hpath⟩ := exists_appendSlashIfNeeded dir
  have hsplit : splitSkippingEmptyParts '/' dir = splitSkippingEmptyParts '/' path := by
    rw [← split_appendSlashIfNeeded, hpath, split_concat]
  have hnames : (absolute workingDirectory dir).names =
      (splitSkippingEmptyParts '/' path).foldl enter [] := by
    rw [names_absolute, hsplit, if_pos hdir]
  have hlength : (joinNames ((splitSkippingEmptyParts '/' path).foldl enter [])).length ≤
      path.length := by
    cases path with
    | nil => rfl
    | cons c rest =>
        have hc : c = '/' := by
          have hhead : (appendSlashIfNeeded dir).head? = some '/' := by
            rw [appendSlashIfNeeded]
            split_ifs
            · exact hdir
            · rw [List.head?_append, hdir]
              rfl
          rw [hpath] at hhead
          exact Option.some.inj hhead
        have hfold := length_joinNames_foldl_enter [] (splitSkippingEmptyParts '/' rest)
        have hrest := length_joinNames_split rest
        rw [hc, splitSkippingEmptyParts_cons_self, List.length_cons]
        exact le_trans hfold (by simpa [joinNames] using hrest)
  rw [withSlash, hnames, hpath, List.length_append, List.length_append]
  exact Nat.add_le_add_right hlength _

/-- **A text in front of a clean path is clean,** unless it is empty. -/
theorem withSlash_absolute (hne : dir ≠ []) (h : appendSlashIfNeeded dir <+: p.text) :
    (absolute workingDirectory dir).withSlash = appendSlashIfNeeded dir := by
  obtain ⟨path, hpath⟩ := exists_appendSlashIfNeeded dir
  have hfront : ∃ front, path = joinNames front ∧ ∀ name ∈ front, IsName name := by
    rw [hpath, text] at h
    split_ifs at h with hroot
    · have hnil : path = [] := by
        have hlength := h.length_le
        rw [List.length_append] at hlength
        exact List.length_eq_zero_iff.1 (by simpa using hlength)
      exact ⟨[], hnil, fun _ hname => absurd hname List.not_mem_nil⟩
    · obtain ⟨front, hfront, hpre⟩ := eq_joinNames_of_isPrefix p.isName h
      exact ⟨front, hfront, fun name hname => p.isName name (hpre.subset hname)⟩
  obtain ⟨front, rfl, hnames⟩ := hfront
  have hsplit : splitSkippingEmptyParts '/' dir = front ∧ dir.head? = some '/' := by
    rw [appendSlashIfNeeded] at hpath
    split_ifs at hpath with hlast
    · rw [hpath]
      refine ⟨split_withSlash hnames, ?_⟩
      cases front with
      | nil => rfl
      | cons name front => rfl
    · have heq := List.append_cancel_right hpath
      rw [heq] at hne ⊢
      refine ⟨split_joinNames hnames, ?_⟩
      cases front with
      | nil => exact absurd rfl hne
      | cons name front => rfl
  have hnamesOf : (absolute workingDirectory dir).names = front := by
    rw [names_absolute, hsplit.1, if_pos hsplit.2, foldl_enter hnames, List.nil_append]
  rw [withSlash, hnamesOf, hpath]

/-- Behind the slash of a directory it goes on from there. -/
lemma names_absolute_append (rest : Text) :
    (absolute workingDirectory (dir ++ '/' :: rest)).names =
      (splitSkippingEmptyParts '/' rest).foldl enter
        (absolute workingDirectory (dir ++ ['/'])).names := by
  have hhead : (dir ++ '/' :: rest).head? = (dir ++ ['/']).head? := by
    cases dir <;> rfl
  rw [names_absolute, names_absolute, hhead, split_append, split_concat, List.foldl_append]

lemma text_of_ne (h : p.names ≠ []) : p.text = joinNames p.names := if_neg h

lemma names_absolute_text : (absolute workingDirectory (p.text ++ ['/'])).names = p.names := by
  rw [names_absolute]
  by_cases hroot : p.names = []
  · rw [text, if_pos hroot, hroot]
    rfl
  · have hhead : (joinNames p.names).head? = some '/' := by
      obtain ⟨name, names, hnames⟩ := List.exists_cons_of_ne_nil hroot
      rw [hnames]
      rfl
    rw [text_of_ne hroot, split_withSlash p.isName, List.head?_append, hhead, Option.some_or,
      if_pos rfl, foldl_enter p.isName, List.nil_append]

/-- Only of the root the slash is a part. -/
lemma withSlash_eq (h : p.names ≠ []) : p.withSlash = p.text ++ ['/'] := by
  rw [text_of_ne h, withSlash]

end AbsolutePath

end Autobackup
