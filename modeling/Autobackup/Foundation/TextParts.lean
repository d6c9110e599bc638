import Autobackup.Foundation.QString

/-!
# Parts of a text

What a text contains, what is left of it without the spaces around it, and how another text splits
it (`split_append`).  A part that begins with a character that the front does not have begins behind
the front (`infix_append_iff`).
-/

namespace Autobackup.QString

/-- `QString::trimmed` -/
def trimmed (text : Text) : Text := (text.dropWhile isSpace).rdropWhile isSpace

/-- `QString::contains` -/
def contains (text part : Text) : Bool :=
  @decide (part <:+: text) (List.instDecidableIsInfixOfDecidableEq part text)

/-- `QString::split` by a text, from the left to the right.  `part` is what was read of the current
part, backwards, and `skip` characters belong to the separator. -/
def splitFrom (separator : Text) : ℕ → Text → Text → List Text
  | _, part, [] => [part.reverse]
  | skip + 1, part, _ :: rest => splitFrom separator skip part rest
  | 0, part, c :: rest =>
      if separator <+: c :: rest then
        part.reverse :: splitFrom separator (separator.length - 1) [] rest
      else splitFrom separator 0 (c :: part) rest

def split (separator text : Text) : List Text := splitFrom separator 0 [] text

/-- `QString::indexOf` of a part that the text contains. -/
def indexOf (part : Text) : Text → ℕ
  | [] => 0
  | c :: text => if part <+: c :: text then 0 else indexOf part text + 1

/-- `QString::remove` -/
def remove (text : Text) (position n : ℕ) : Text := text.take position ++ text.drop (position + n)

def IsInt (n : ℤ) : Prop := -2 ^ 31 ≤ n ∧ n < 2 ^ 31

instance (n : ℤ) : Decidable (IsInt n) := inferInstanceAs (Decidable (_ ∧ _))

/-- `QString::toInt` -/
def toInt (text : Text) : Option ℤ := (toLongLong text).filter fun n => IsInt n

variable {c d : Char} {front part rest separator text : Text} {n : ℤ}

/-! ## Trimming -/

lemma mem_dropWhile {p : Char → Bool} (h : c ∈ text) (hp : p c = false) : c ∈ text.dropWhile p := by
  rw [← List.takeWhile_append_dropWhile (p := p) (l := text)] at h
  rcases List.mem_append.1 h with h | h
  · exact absurd (List.mem_takeWhile_imp h) (by rw [hp]; exact Bool.false_ne_true)
  · exact h

/-- What is not a space stays. -/
lemma mem_trimmed (h : c ∈ text) (hspace : isSpace c = false) : c ∈ trimmed text := by
  rw [trimmed, List.rdropWhile, List.mem_reverse]
  exact mem_dropWhile (List.mem_reverse.2 (mem_dropWhile h hspace)) hspace

lemma isSpace_getLast_trimmed (h : (trimmed text).getLast? = some c) : isSpace c = false := by
  have hne : trimmed text ≠ [] := fun hnil => by
    rw [hnil] at h
    exact absurd h (by simp)
  have hlast := List.rdropWhile_last_not isSpace (text.dropWhile isSpace) hne
  rw [List.getLast?_eq_some_getLast hne] at h
  have heq : (trimmed text).getLast hne = c := Option.some.inj h
  rw [← heq]
  exact Bool.eq_false_iff.2 hlast

lemma isSpace_head_trimmed (h : (trimmed text).head? = some c) : isSpace c = false := by
  obtain ⟨rest, hrest⟩ := List.head?_eq_some_iff.1 h
  obtain ⟨back, hback⟩ : trimmed text <+: text.dropWhile isSpace :=
    List.rdropWhile_prefix isSpace _
  rw [hrest, List.cons_append] at hback
  have hne : text.dropWhile isSpace ≠ [] := by
    rw [← hback]
    exact List.cons_ne_nil _ _
  have hhead := List.head_dropWhile_not isSpace hne
  simp only [← hback, List.head_cons] at hhead
  exact hhead

lemma trimmed_isInfix : trimmed text <:+: text :=
  (List.rdropWhile_prefix isSpace _).isInfix.trans (List.dropWhile_suffix _).isInfix

/-- What is trimmed away is space on both sides. -/
lemma exists_eq_trimmed (text : Text) : ∃ front back, text = front ++ trimmed text ++ back ∧
    (∀ c ∈ front, isSpace c = true) ∧ ∀ c ∈ back, isSpace c = true := by
  refine ⟨text.takeWhile isSpace, (text.dropWhile isSpace).rtakeWhile isSpace, ?_,
    fun c hc => List.mem_takeWhile_imp hc, fun c hc => List.mem_rtakeWhile_imp hc⟩
  rw [List.append_assoc, trimmed, List.rdropWhile_append_rtakeWhile,
    List.takeWhile_append_dropWhile]

lemma trimmed_append (h : ∀ c ∈ front, isSpace c = true) :
    trimmed (front ++ text) = trimmed text := by
  unfold trimmed
  rw [List.dropWhile_append_of_pos h]

lemma trimmed_eq_nil_iff : trimmed text = [] ↔ ∀ c ∈ text, isSpace c = true := by
  constructor
  · intro h c hc
    by_contra hspace
    have hmem := mem_trimmed hc (Bool.eq_false_iff.2 hspace)
    rw [h] at hmem
    exact absurd hmem List.not_mem_nil
  · intro h
    have hnil : trimmed (text ++ []) = trimmed [] := trimmed_append h
    rw [List.append_nil] at hnil
    rw [hnil]
    rfl

lemma trimmed_eq_self (hhead : ∀ c ∈ text.head?, isSpace c = false)
    (hlast : ∀ c ∈ text.getLast?, isSpace c = false) : trimmed text = text := by
  have hdrop : text.dropWhile isSpace = text := by
    cases text with
    | nil => rfl
    | cons c text => exact List.dropWhile_cons_of_neg (Bool.eq_false_iff.1 (hhead c rfl))
  rw [trimmed, hdrop, List.rdropWhile_eq_self_iff]
  intro hne
  rw [hlast _ (List.getLast_mem_getLast? hne)]
  exact Bool.false_ne_true

/-! ## Containing -/

lemma contains_iff : contains text part = true ↔ part <:+: text :=
  @decide_eq_true_iff _ (List.instDecidableIsInfixOfDecidableEq part text)

lemma contains_eq_false (hmem : c ∈ part) (htext : c ∉ text) : contains text part = false :=
  Bool.eq_false_iff.2 fun h => htext ((contains_iff.1 h).subset hmem)

/-- A part that cannot begin in front. -/
lemma infix_append_iff (h : c ∉ front) : c :: part <:+: front ++ text ↔ c :: part <:+: text := by
  induction front with
  | nil => exact Iff.rfl
  | cons d front ih =>
      obtain ⟨hd, hfront⟩ := not_or.1 (mt List.mem_cons.2 h)
      rw [List.cons_append, List.infix_cons_iff, List.cons_prefix_cons, ih hfront]
      exact ⟨fun hor => hor.resolve_left fun hand => hd hand.1, .inr⟩

/-- What has no character of a part around it. -/
lemma infix_middle {back : Text} (hne : part ≠ []) (hfront : ∀ c ∈ part, c ∉ front)
    (hback : ∀ c ∈ part, c ∉ back) (h : part <:+: front ++ text ++ back) : part <:+: text := by
  have hbefore : part <:+: front ++ text := by
    obtain ⟨c, last, hlast⟩ := List.exists_cons_of_ne_nil (mt List.reverse_eq_nil_iff.1 hne)
    have hc : c ∉ back.reverse := by
      rw [List.mem_reverse]
      apply hback
      rw [← List.mem_reverse, hlast]
      exact List.mem_cons_self
    rw [← List.reverse_infix, List.reverse_append, hlast, infix_append_iff hc, ← hlast,
      List.reverse_infix] at h
    exact h
  obtain ⟨c, rest, rfl⟩ := List.exists_cons_of_ne_nil hne
  exact (infix_append_iff (hfront c List.mem_cons_self)).1 hbefore

/-- A part without spaces stays. -/
lemma infix_trimmed (hne : part ≠ []) (hpart : ∀ c ∈ part, isSpace c = false)
    (h : part <:+: text) : part <:+: trimmed text := by
  obtain ⟨front, back, heq, hfront, hback⟩ := exists_eq_trimmed text
  rw [heq] at h
  apply infix_middle hne _ _ h
  · intro c hc hmem
    exact Bool.false_ne_true ((hpart c hc).symm.trans (hfront c hmem))
  · intro c hc hmem
    exact Bool.false_ne_true ((hpart c hc).symm.trans (hback c hmem))

lemma prefix_of_prefix_append_cons (hc : c ∉ part) (h : part <+: front ++ c :: text) :
    part <+: front := by
  apply List.prefix_of_prefix_length_le h (List.prefix_append front _)
  by_contra hlonger
  have hback : front ++ [c] <+: part := by
    have hlater : front ++ [c] <+: front ++ c :: text :=
      List.append_cons front c text ▸ List.prefix_append (front ++ [c]) text
    apply List.prefix_of_prefix_length_le hlater h
    rw [List.length_append, List.length_singleton]
    omega
  exact hc (hback.subset (List.mem_append_right _ (List.mem_singleton_self c)))

/-- A part is on one side of a character that it does not have. -/
lemma infix_append_cons (hc : c ∉ part) (h : part <:+: front ++ c :: text) :
    part <:+: front ∨ part <:+: text := by
  induction front with
  | nil =>
      rcases List.infix_cons_iff.1 h with hbegins | hlater
      · have hfront : part <+: [] := prefix_of_prefix_append_cons hc hbegins
        exact Or.inl hfront.isInfix
      · exact Or.inr hlater
  | cons d front ih =>
      rcases List.infix_cons_iff.1 h with hbegins | hlater
      · have hfront : part <+: d :: front := prefix_of_prefix_append_cons hc hbegins
        exact Or.inl hfront.isInfix
      · rcases ih hlater with hfront | htext
        · exact Or.inl (List.infix_cons_iff.2 (Or.inr hfront))
        · exact Or.inr htext

/-! ## Finding and removing -/

/-- The part does not begin in front. -/
lemma indexOf_append (h : c ∉ front) : indexOf (c :: part) (front ++ (c :: part ++ text)) =
    front.length := by
  induction front with
  | nil => exact if_pos (List.prefix_append _ _)
  | cons d front ih =>
      obtain ⟨hd, hfront⟩ := not_or.1 (mt List.mem_cons.2 h)
      have hbegins : ¬ c :: part <+: d :: (front ++ (c :: part ++ text)) := fun hbegins =>
        hd (List.cons_prefix_cons.1 hbegins).1
      rw [List.cons_append, indexOf, if_neg hbegins, ih hfront]
      rfl

/-- Neither does one that is not in front, and that the character behind it is not part of. -/
lemma indexOf_append_cons (hc : c ∉ part) (h : ¬ part <:+: front) :
    indexOf part (front ++ c :: text) = front.length + 1 + indexOf part text := by
  have hbegins : ∀ {front : Text}, ¬ part <:+: front → ¬ part <+: front ++ c :: text :=
    fun h hbegins => h (prefix_of_prefix_append_cons hc hbegins).isInfix
  induction front with
  | nil =>
      have hnot := hbegins h
      rw [List.nil_append] at hnot ⊢
      rw [indexOf, if_neg hnot, List.length_nil]
      omega
  | cons d front ih =>
      obtain ⟨-, hlater⟩ := not_or.1 (mt List.infix_cons_iff.2 h)
      have hnot := hbegins h
      rw [List.cons_append] at hnot ⊢
      rw [indexOf, if_neg hnot, ih hlater, List.length_cons]
      omega

lemma remove_append (before part after : Text) :
    remove (before ++ part ++ after) before.length part.length = before ++ after := by
  unfold remove
  rw [List.append_assoc, List.take_left, ← List.append_assoc, ← List.length_append,
    List.drop_left]

/-! ## Splitting -/

lemma splitFrom_length_append {skip : Text} :
    splitFrom separator skip.length part (skip ++ rest) = splitFrom separator 0 part rest := by
  induction skip with
  | nil => rfl
  | cons c skip ih => exact ih

lemma splitFrom_of_not_infix (h : ¬ separator <:+: text) :
    splitFrom separator 0 part text = [part.reverse ++ text] := by
  induction text generalizing part with
  | nil => exact congrArg (fun text => [text]) (List.append_nil _).symm
  | cons c text ih =>
      obtain ⟨hbegins, hlater⟩ := not_or.1 (mt List.infix_cons_iff.2 h)
      rw [splitFrom, if_neg hbegins, ih hlater, List.reverse_cons, List.append_assoc]
      rfl

lemma splitFrom_append (h : c ∉ front) :
    splitFrom (c :: separator) 0 part (front ++ text) =
      splitFrom (c :: separator) 0 (front.reverse ++ part) text := by
  induction front generalizing part with
  | nil => rfl
  | cons d front ih =>
      obtain ⟨hd, hfront⟩ := not_or.1 (mt List.mem_cons.2 h)
      have hbegins : ¬ c :: separator <+: d :: (front ++ text) := fun hbegins =>
        hd (List.cons_prefix_cons.1 hbegins).1
      rw [List.cons_append, splitFrom, if_neg hbegins, ih hfront, List.reverse_cons,
        List.append_assoc]
      rfl

/-- **One separator gives two parts.** -/
theorem split_append (hfront : c ∉ front) (hrest : ¬ c :: separator <:+: rest) :
    split (c :: separator) (front ++ (c :: separator ++ rest)) = [front, rest] := by
  have hbegins : c :: separator <+: c :: (separator ++ rest) :=
    List.prefix_append (c :: separator) rest
  have hskip : (c :: separator).length - 1 = separator.length := Nat.add_sub_cancel _ _
  rw [split, splitFrom_append hfront, List.cons_append, splitFrom, if_pos hbegins, hskip,
    splitFrom_length_append, splitFrom_of_not_infix hrest, List.append_nil, List.reverse_reverse]
  rfl

lemma toInt_number (h : IsInt n) : toInt (number n) = some n := by
  have hlong : IsLongLong n := by
    unfold IsInt at h
    unfold IsLongLong
    omega
  rw [toInt, toLongLong_number_of_isLongLong hlong, Option.filter_some, if_pos (decide_eq_true h)]

end Autobackup.QString
