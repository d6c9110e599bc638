import Mathlib.Algebra.Group.Int.Defs
import Mathlib.Data.Int.Basic
import Mathlib.Data.List.DropRight
import Mathlib.Algebra.Group.Nat.Defs

/-!
# Strings of Qt

What this development uses of `QString`, `QTextStream` and `QByteArray`: numbers that are written
and read, hexadecimal digits, replacing, and splitting.  A string is the list of its characters.
-/

namespace Autobackup.QString

abbrev Text := List Char

instance : LawfulBEq Text := inferInstanceAs (LawfulBEq (List Char))

/-- `QChar::isSpace`. -/
def isSpace (c : Char) : Bool :=
  (9 ≤ c.toNat ∧ c.toNat ≤ 13) ∨ (8192 ≤ c.toNat ∧ c.toNat ≤ 8202) ∨
    c.toNat ∈ [32, 133, 160, 5760, 8232, 8233, 8239, 8287, 12288]

/-- `QString::number`. -/
def number : ℤ → Text
  | .ofNat n => Nat.toDigits 10 n
  | .negSucc n => '-' :: Nat.toDigits 10 (n + 1)

def digits (text : Text) : Option ℕ :=
  if text ≠ [] ∧ text.all Char.isDigit then some (Nat.ofDigitChars 10 text 0) else none

def signed : Text → Option ℤ
  | '-' :: text => (digits text).map fun n => -(n : ℤ)
  | '+' :: text => (digits text).map fun n => (n : ℤ)
  | text => (digits text).map fun n => (n : ℤ)

def IsLongLong (n : ℤ) : Prop := -2 ^ 63 ≤ n ∧ n < 2 ^ 63
  deriving Decidable

/-- `QString::toLongLong`. -/
def toLongLong (text : Text) : Option ℤ :=
  (signed ((text.dropWhile isSpace).rdropWhile isSpace)).filter (IsLongLong ·)

/-- What a digit of a base up to 16 stands for. -/
def hexValue (c : Char) : Option ℕ :=
  if c.isDigit then some (c.toNat - '0'.toNat)
  else if 'a' ≤ c ∧ c ≤ 'f' then some (c.toNat - 'a'.toNat + 10)
  else if 'A' ≤ c ∧ c ≤ 'F' then some (c.toNat - 'A'.toNat + 10)
  else none

def leadingDigits (base : ℕ) : Text → List ℕ
  | [] => []
  | c :: rest =>
      match hexValue c with
      | some value => if value < base then value :: leadingDigits base rest else []
      | none => []

def leadingNumber (base : ℕ) (text : Text) : ℕ :=
  (leadingDigits base text).foldl (fun value digit => base * value + digit) 0

/-- The digits are read to a `quint64`, and that is a `qint64` then. -/
def readBase (base : ℕ) (text : Text) : ℤ := (leadingNumber base text : ℤ).bmod (2 ^ 64)

/-- `QTextStream::operator>>`, which detects the base.  What is not a number is read as 0. -/
def readLongLong (text : Text) : ℤ :=
  match text.dropWhile isSpace with
  | '0' :: c :: rest =>
      if c = 'x' ∨ c = 'X' then readBase 16 rest
      else if c = 'b' ∨ c = 'B' then readBase 2 rest
      else if '0' ≤ c ∧ c ≤ '7' then readBase 8 (c :: rest)
      else readBase 10 (c :: rest)
  | '-' :: rest => -(readBase 10 rest).natAbs
  | '+' :: rest => readBase 10 rest
  | text => readBase 10 text

/-- `QByteArray::toHex` -/
def toHex (bytes : List UInt8) : Text :=
  bytes.flatMap fun byte => [(byte.toNat / 16).digitChar, (byte.toNat % 16).digitChar]

/-- The half bytes come from the last one on. -/
def bytesOfNibbles : List ℕ → List UInt8
  | low :: high :: rest => bytesOfNibbles rest ++ [UInt8.ofNat (16 * high + low)]
  | [low] => [UInt8.ofNat low]
  | [] => []

/-- `QByteArray::fromHex`, which skips what is not a digit. -/
def fromHex (text : Text) : List UInt8 := bytesOfNibbles (text.filterMap hexValue).reverse

/-- `QString::toLatin1` -/
def toLatin1 (text : Text) : Text := text.map fun c => if c.toNat < 256 then c else '?'

/-- `QString::replace`, from the left to the right.  `skip` characters belong to what was replaced
last. -/
def replaceFrom (before after : Text) : ℕ → Text → Text
  | _, [] => []
  | skip + 1, _ :: rest => replaceFrom before after skip rest
  | 0, c :: rest =>
      if before <+: c :: rest then after ++ replaceFrom before after (before.length - 1) rest
      else c :: replaceFrom before after 0 rest

def replace (before after text : Text) : Text := replaceFrom before after 0 text

/-- `QString::split` with `SkipEmptyParts`. -/
def splitSkippingEmptyParts (separator : Char) (text : Text) : List Text :=
  (text.splitOn separator).filter (· ≠ [])

/-! ## Reading what was written -/

lemma isSpace_of_isDigit {c : Char} (h : c.isDigit = true) : isSpace c = false := by
  have hrange : 48 ≤ c.toNat ∧ c.toNat ≤ 57 := by
    simp only [Char.isDigit, Bool.and_eq_true, decide_eq_true_eq] at h
    exact ⟨h.1, h.2⟩
  simp only [isSpace, List.mem_cons, List.not_mem_nil, or_false, decide_eq_false_iff_not]
  omega

lemma isDigit_toDigits {n : ℕ} : ∀ c ∈ Nat.toDigits 10 n, c.isDigit = true := fun _ hc =>
  Nat.isDigit_of_mem_toDigits (by decide) (by decide) hc

lemma toDigits_ne_nil {n : ℕ} : Nat.toDigits 10 n ≠ [] := by
  have h := Nat.length_toDigits_pos (b := 10) (n := n)
  exact List.ne_nil_of_length_pos h

lemma digits_toDigits (n : ℕ) : digits (Nat.toDigits 10 n) = some n := by
  rw [digits, if_pos ⟨toDigits_ne_nil, List.all_eq_true.2 isDigit_toDigits⟩,
    Nat.ofDigitChars_toDigits (by decide) (by decide)]

lemma signed_number (n : ℤ) : signed (number n) = some n := by
  cases n with
  | ofNat n =>
      have hdigits := digits_toDigits n
      rw [number]
      -- the text starts with a digit, not with a sign
      cases htext : Nat.toDigits 10 n with
      | nil => exact absurd htext toDigits_ne_nil
      | cons c rest =>
          have hc : c.isDigit = true := isDigit_toDigits c (htext ▸ List.mem_cons_self)
          rw [htext] at hdigits
          unfold signed
          split
          · next heq =>
              rw [(List.cons_eq_cons.1 heq).1] at hc
              exact absurd hc (by decide)
          · next heq =>
              rw [(List.cons_eq_cons.1 heq).1] at hc
              exact absurd hc (by decide)
          · rw [hdigits]
            rfl
  | negSucc n =>
      rw [number, signed, digits_toDigits]
      rfl

lemma isDigit_of_mem_number {n : ℤ} {c : Char} (h : c ∈ number n) : c.isDigit = true ∨ c = '-' := by
  cases n with
  | ofNat n => exact .inl (isDigit_toDigits c h)
  | negSucc n =>
      rcases List.mem_cons.1 h with hc | hmem
      · exact .inr hc
      · exact .inl (isDigit_toDigits c hmem)

lemma isSpace_of_mem_number {n : ℤ} {c : Char} (h : c ∈ number n) : isSpace c = false := by
  rcases isDigit_of_mem_number h with hdigit | rfl
  · exact isSpace_of_isDigit hdigit
  · decide

lemma dropWhile_number {n : ℤ} : (number n).dropWhile isSpace = number n := by
  refine List.dropWhile_eq_self_iff.2 fun hpos => ?_
  rw [isSpace_of_mem_number (List.getElem_mem _)]
  exact Bool.false_ne_true

lemma not_mem_number {n : ℤ} {c : Char} (hdigit : c.isDigit = false) (hminus : c ≠ '-') :
    c ∉ number n := fun hmem => by
  rcases isDigit_of_mem_number hmem with h | h
  · exact Bool.false_ne_true (hdigit.symm.trans h)
  · exact hminus h

lemma number_ne_nil {n : ℤ} : number n ≠ [] := by
  cases n with
  | ofNat n => exact toDigits_ne_nil
  | negSucc n => exact List.cons_ne_nil _ _

lemma toLongLong_number_eq_filter (n : ℤ) :
    toLongLong (number n) = (some n).filter (IsLongLong ·) := by
  have hright : (number n).rdropWhile isSpace = number n := by
    refine List.rdropWhile_eq_self_iff.2 fun hne => ?_
    rw [isSpace_of_mem_number (List.getLast_mem hne)]
    exact Bool.false_ne_true
  rw [toLongLong, dropWhile_number, hright, signed_number]

/-- **A number is read as what was written.** -/
theorem toLongLong_number {n m : ℤ} (h : toLongLong (number n) = some m) : n = m := by
  rw [toLongLong_number_eq_filter, Option.filter_eq_some_iff] at h
  exact Option.some_inj.1 h.1

theorem toLongLong_number_of_isLongLong {n : ℤ} (h : IsLongLong n) :
    toLongLong (number n) = some n := by
  rw [toLongLong_number_eq_filter, Option.filter_some, if_pos (decide_eq_true h)]

/-! ## Reading from a stream -/

lemma hexValue_of_isDigit {c : Char} (h : c.isDigit = true) :
    hexValue c = some (c.toNat - '0'.toNat) := if_pos h

lemma foldl_leadingDigits {text : Text} (h : ∀ c ∈ text, c.isDigit = true) (n : ℕ) :
    (leadingDigits 10 text).foldl (fun value digit => 10 * value + digit) n =
      Nat.ofDigitChars 10 text n := by
  induction text generalizing n with
  | nil => rfl
  | cons c rest ih =>
      have hc : c.isDigit = true := h c List.mem_cons_self
      have hrange : 48 ≤ c.toNat ∧ c.toNat ≤ 57 := by
        simp only [Char.isDigit, Bool.and_eq_true, decide_eq_true_eq] at hc
        exact ⟨hc.1, hc.2⟩
      have hlt : c.toNat - '0'.toNat < 10 := by
        have hzero : '0'.toNat = 48 := rfl
        omega
      have hleading : leadingDigits 10 (c :: rest) =
          (c.toNat - '0'.toNat) :: leadingDigits 10 rest := by
        rw [leadingDigits, hexValue_of_isDigit hc]
        exact if_pos hlt
      rw [hleading, List.foldl_cons, ih fun c hc => h c (List.mem_cons_of_mem _ hc),
        Nat.ofDigitChars_cons]

lemma readBase_toDigits (n : ℕ) : readBase 10 (Nat.toDigits 10 n) = (n : ℤ).bmod (2 ^ 64) := by
  have hnumber : leadingNumber 10 (Nat.toDigits 10 n) = n := by
    rw [leadingNumber, foldl_leadingDigits isDigit_toDigits,
      Nat.ofDigitChars_toDigits (by decide) (by decide)]
  unfold readBase
  rw [hnumber]

/-- The first digit of a number is zero only if it is its only one. -/
lemma toDigits_eq_zero_cons {n : ℕ} {rest : Text} (h : Nat.toDigits 10 n = '0' :: rest) :
    rest = [] := by
  induction n using Nat.strongRecOn generalizing rest with
  | ind n ih =>
      by_cases hn : n < 10
      · rw [Nat.toDigits_of_lt_base hn] at h
        exact (List.cons_eq_cons.1 h).2.symm
      · rw [Nat.toDigits_of_base_le (by decide) (by omega)] at h
        have hdiv : n / 10 < n := by omega
        -- the digits before the last one are those of a number that is not zero
        cases hstart : Nat.toDigits 10 (n / 10) with
        | nil => exact absurd hstart toDigits_ne_nil
        | cons c start =>
            rw [hstart, List.cons_append, List.cons_eq_cons] at h
            obtain ⟨rfl, -⟩ := h
            have hnil := ih _ hdiv hstart
            have hzero : n / 10 = 0 := by
              have hvalue := Nat.ofDigitChars_toDigits (b := 10) (n := n / 10) (by decide)
                (by decide)
              rw [hstart, hnil] at hvalue
              exact hvalue.symm
            omega

theorem readLongLong_number {n : ℤ} (h : IsLongLong n) : readLongLong (number n) = n := by
  unfold IsLongLong at h
  rw [readLongLong, dropWhile_number]
  cases n with
  | ofNat n =>
      have hvalue : readBase 10 (Nat.toDigits 10 n) = n := by
        have hrange : (n : ℤ) < 2 ^ 63 := h.2
        rw [readBase_toDigits]
        exact Int.bmod_eq_of_le (by omega) (by omega)
      rw [number]
      split
      · next heq => exact absurd (toDigits_eq_zero_cons heq) (List.cons_ne_nil _ _)
      · next heq =>
          have hdigit := isDigit_toDigits '-' (heq ▸ List.mem_cons_self)
          exact absurd hdigit (by decide)
      · next heq =>
          have hdigit := isDigit_toDigits '+' (heq ▸ List.mem_cons_self)
          exact absurd hdigit (by decide)
      · exact hvalue
  | negSucc n =>
      have hbound : (n : ℤ) + 1 ≤ 2 ^ 63 := by omega
      rw [number]
      simp only [readBase_toDigits]
      by_cases hmin : (n : ℤ) + 1 = 2 ^ 63
      · have hbmod : ((n + 1 : ℕ) : ℤ).bmod (2 ^ 64) = -2 ^ 63 := by
          rw [Int.natCast_add, Int.natCast_one, hmin]
          rfl
        rw [hbmod]
        omega
      · have hbmod : ((n + 1 : ℕ) : ℤ).bmod (2 ^ 64) = ((n + 1 : ℕ) : ℤ) :=
          Int.bmod_eq_of_le (by omega) (by omega)
        rw [hbmod]
        omega

/-! ## Bytes -/

lemma hexValue_digitChar {n : ℕ} (h : n < 16) : hexValue n.digitChar = some n := by
  have hall : ∀ n < 16, hexValue n.digitChar = some n := by decide
  exact hall n h

lemma filterMap_hexValue_toHex_singleton (byte : UInt8) :
    (toHex [byte]).filterMap hexValue = [byte.toNat / 16, byte.toNat % 16] := by
  have hbyte := byte.toNat_lt
  have hhigh : byte.toNat / 16 < 16 := by omega
  have hlow : byte.toNat % 16 < 16 := Nat.mod_lt _ (by decide)
  have htext : toHex [byte] = [(byte.toNat / 16).digitChar, (byte.toNat % 16).digitChar] := rfl
  rw [htext, List.filterMap_cons_some (hexValue_digitChar hhigh),
    List.filterMap_cons_some (hexValue_digitChar hlow), List.filterMap_nil]

/-- By induction on the bytes from the last one, as they are read. -/
theorem fromHex_toHex (bytes : List UInt8) : fromHex (toHex bytes) = bytes := by
  induction bytes using List.reverseRecOn with
  | nil => rfl
  | append_singleton bytes byte ih =>
      have htext : toHex (bytes ++ [byte]) = toHex bytes ++ toHex [byte] := List.flatMap_append
      have hbyte : UInt8.ofNat (16 * (byte.toNat / 16) + byte.toNat % 16) = byte := by
        rw [Nat.div_add_mod]
        exact UInt8.ofNat_toNat
      rw [fromHex] at ih
      rw [fromHex, htext, List.filterMap_append, filterMap_hexValue_toHex_singleton,
        List.reverse_append]
      show bytesOfNibbles ((toHex bytes).filterMap hexValue).reverse ++ [_] = bytes ++ [byte]
      rw [ih, hbyte]

lemma mem_toHex {bytes : List UInt8} {c : Char} (h : c ∈ toHex bytes) :
    ∃ n < 16, c = n.digitChar := by
  obtain ⟨byte, -, hc⟩ := List.mem_flatMap.1 h
  have hbyte := byte.toNat_lt
  rcases List.mem_cons.1 hc with rfl | hc
  · exact ⟨_, by omega, rfl⟩
  · exact ⟨_, Nat.mod_lt _ (by decide), List.mem_singleton.1 hc⟩

lemma not_mem_toHex {bytes : List UInt8} {c : Char} (h : ∀ n < 16, c ≠ n.digitChar) :
    c ∉ toHex bytes := fun hmem => by
  obtain ⟨n, hn, hc⟩ := mem_toHex hmem
  exact h n hn hc

lemma number_injective : Function.Injective number := fun n m h => by
  have hn := signed_number n
  rw [h, signed_number] at hn
  exact (Option.some_inj.1 hn).symm

lemma toLongLong_range {text : Text} {n : ℤ} (h : toLongLong text = some n) : IsLongLong n := by
  rw [toLongLong, Option.filter_eq_some_iff] at h
  exact of_decide_eq_true h.2

/-! ## The parts of a text -/

/-- A part has characters of the text, other than the separator. -/
lemma mem_splitOn {separator : Char} {text : Text} :
    ∀ part ∈ text.splitOn separator, ∀ c ∈ part, c ∈ text ∧ c ≠ separator := by
  induction text with
  | nil => simp
  | cons first text ih =>
      have hlater : ∀ part ∈ text.splitOn separator, ∀ c ∈ part,
          c ∈ first :: text ∧ c ≠ separator := fun part hpart c hc =>
        ⟨List.mem_cons_of_mem _ (ih part hpart c hc).1, (ih part hpart c hc).2⟩
      rw [List.splitOn_cons_eq_if_modifyHead]
      split_ifs with hfirst
      · exact List.forall_mem_cons.2 ⟨fun c hc => absurd hc List.not_mem_nil, hlater⟩
      · obtain ⟨part, parts, hparts⟩ :=
          List.exists_cons_of_ne_nil (List.splitOn_ne_nil separator text)
        rw [hparts] at hlater ⊢
        obtain ⟨hpart, hrest⟩ := List.forall_mem_cons.1 hlater
        refine List.forall_mem_cons.2 ⟨fun c hc => ?_, hrest⟩
        rcases List.mem_cons.1 hc with rfl | hc
        · exact ⟨List.mem_cons_self, fun heq => hfirst (beq_iff_eq.2 heq)⟩
        · exact hpart c hc

end Autobackup.QString
