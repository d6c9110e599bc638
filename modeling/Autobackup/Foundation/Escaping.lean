import Autobackup.Foundation.QString
import Mathlib.Data.List.Infix

/-!
# Escaping a separator

A separator is escaped by another character in front of it.  A reader that splits at separators
first replaces the escaped ones by a placeholder, and puts the separator back afterwards.

That gives the text back as long as the text does not end with the escaping character
(`replace_escape`), and nothing but what was put in is taken for a placeholder (`Recoverable`,
which `replace_substitute_eq_iff` shows to be exact).  A placeholder without a border is safe in
every text that does not contain it.
-/

namespace Autobackup.QString

variable {separator escaper : Char} {placeholder before after text rest : Text}

/-- Each separator is replaced. -/
def substitute (separator : Char) (by_ text : Text) : Text :=
  text.flatMap fun c => if c = separator then by_ else [c]

@[simp] lemma substitute_nil : substitute separator placeholder [] = [] := rfl

@[simp] lemma substitute_cons_self :
    substitute separator placeholder (separator :: rest) =
      placeholder ++ substitute separator placeholder rest := by
  simp [substitute]

lemma substitute_cons_of_ne {c : Char} (h : c ≠ separator) :
    substitute separator placeholder (c :: rest) =
      c :: substitute separator placeholder rest := by
  simp [substitute, h]

@[simp] lemma substitute_append :
    substitute separator placeholder (text ++ rest) =
      substitute separator placeholder text ++ substitute separator placeholder rest :=
  List.flatMap_append

lemma substitute_eq_self (h : separator ∉ text) : substitute separator placeholder text = text := by
  induction text with
  | nil => rfl
  | cons c rest ih =>
      rw [List.mem_cons, not_or] at h
      rw [substitute_cons_of_ne (Ne.symm h.1), ih h.2]

lemma substitute_ne_nil (hplaceholder : placeholder ≠ []) (htext : text ≠ []) :
    substitute separator placeholder text ≠ [] := by
  cases text with
  | nil => exact absurd rfl htext
  | cons c rest =>
      by_cases hc : c = separator
      · subst hc
        rw [substitute_cons_self]
        exact List.append_ne_nil_of_left_ne_nil hplaceholder _
      · rw [substitute_cons_of_ne hc]
        exact List.cons_ne_nil _ _

lemma not_mem_substitute (h : separator ∉ placeholder) :
    separator ∉ substitute separator placeholder text := by
  intro hmem
  obtain ⟨c, -, hc⟩ := List.mem_flatMap.1 hmem
  by_cases heq : c = separator
  · rw [if_pos heq] at hc
    exact h hc
  · rw [if_neg heq, List.mem_singleton] at hc
    exact heq hc.symm

lemma mem_of_mem_substitute {c : Char} (h : c ∈ substitute separator placeholder text) :
    c ∈ placeholder ∨ c ∈ text := by
  obtain ⟨d, hd, hc⟩ := List.mem_flatMap.1 h
  by_cases heq : d = separator
  · rw [if_pos heq] at hc
    exact .inl hc
  · rw [if_neg heq, List.mem_singleton] at hc
    exact .inr (hc ▸ hd)

/-! ## Replacing -/

lemma replaceFrom_length_append {skip : Text} :
    replaceFrom before after skip.length (skip ++ rest) = replace before after rest := by
  induction skip with
  | nil => rfl
  | cons c skip ih => exact ih

lemma replace_append_self (h : before ≠ []) :
    replace before after (before ++ rest) = after ++ replace before after rest := by
  obtain ⟨c, skip, rfl⟩ := List.exists_cons_of_ne_nil h
  have hprefix : c :: skip <+: c :: (skip ++ rest) := List.prefix_append (c :: skip) rest
  rw [replace, List.cons_append, replaceFrom, if_pos hprefix]
  exact congrArg _ replaceFrom_length_append

lemma replace_cons {c : Char} (h : ¬ before <+: c :: rest) :
    replace before after (c :: rest) = c :: replace before after rest := by
  rw [replace, replaceFrom, if_neg h, replace]

/-- Replacing one character. -/
lemma replace_singleton : replace [separator] after text = substitute separator after text := by
  induction text with
  | nil => rfl
  | cons c rest ih =>
      by_cases hc : c = separator
      · subst hc
        rw [substitute_cons_self, ← ih]
        exact replace_append_self (List.cons_ne_nil _ _)
      · have hprefix : ¬ [separator] <+: c :: rest := by
          rw [List.cons_prefix_cons]
          exact fun h => hc h.1.symm
        rw [replace_cons hprefix, substitute_cons_of_ne hc, ih]

/-- **Escaped separators become placeholders.** -/
theorem replace_escape (hescaper : escaper ≠ separator)
    (h : text.getLast? = some escaper → rest.head? ≠ some separator) :
    replace [escaper, separator] placeholder
        (substitute separator [escaper, separator] text ++ rest) =
      substitute separator placeholder text ++ replace [escaper, separator] placeholder rest := by
  induction text with
  | nil => rfl
  | cons c text ih =>
      have htext : text.getLast? = some escaper → rest.head? ≠ some separator := fun hlast => by
        apply h
        rw [List.getLast?_cons, hlast]
        rfl
      by_cases hc : c = separator
      · subst hc
        rw [substitute_cons_self, substitute_cons_self, List.append_assoc,
          replace_append_self (List.cons_ne_nil _ _), ih htext, List.append_assoc]
      · -- what follows starts with the escaping character, or is another character of the text
        have hprefix : ¬ [escaper, separator] <+:
            c :: (substitute separator [escaper, separator] text ++ rest) := by
          rw [List.cons_prefix_cons]
          rintro ⟨rfl, hprefix⟩
          cases text with
          | nil =>
              obtain ⟨rest', rfl⟩ := hprefix
              exact h rfl rfl
          | cons d text =>
              by_cases hd : d = separator
              · subst hd
                rw [substitute_cons_self, List.cons_append, List.cons_append,
                  List.cons_prefix_cons] at hprefix
                exact hc hprefix.1.symm
              · rw [substitute_cons_of_ne hd, List.cons_append, List.cons_prefix_cons] at hprefix
                exact hd hprefix.1.symm
        rw [substitute_cons_of_ne hc, substitute_cons_of_ne hc, List.cons_append,
          replace_cons hprefix, ih htext, List.cons_append]

/-- The separator after an escaping character is taken for an escaped one. -/
theorem replace_escape_concat (hescaper : escaper ≠ separator) :
    replace [escaper, separator] placeholder
        (substitute separator [escaper, separator] (text ++ [escaper]) ++ separator :: rest) =
      substitute separator placeholder text ++
        (placeholder ++ replace [escaper, separator] placeholder rest) := by
  have hlast : substitute separator [escaper, separator] [escaper] = [escaper] :=
    substitute_cons_of_ne hescaper
  have hrest : [escaper] ++ separator :: rest = [escaper, separator] ++ rest := rfl
  have hhead : text.getLast? = some escaper →
      ([escaper, separator] ++ rest).head? ≠ some separator :=
    fun _ h => hescaper (Option.some_inj.1 h)
  rw [substitute_append, hlast, List.append_assoc, hrest,
    replace_escape hescaper hhead, replace_append_self (List.cons_ne_nil _ _)]

lemma substitute_singleton_self : substitute separator [separator] text = text := by
  induction text with
  | nil => rfl
  | cons c rest ih =>
      by_cases hc : c = separator
      · subst hc
        rw [substitute_cons_self, ih]
        rfl
      · rw [substitute_cons_of_ne hc, ih]

/-- Escaping can be undone. -/
lemma substitute_escape_injective (hescaper : escaper ≠ separator) :
    Function.Injective (substitute separator [escaper, separator]) := by
  intro text text' h
  have hundo : ∀ text, replace [escaper, separator] [separator]
      (substitute separator [escaper, separator] text) = text := fun text => by
    have hreplace : replace [escaper, separator] [separator]
        (substitute separator [escaper, separator] text ++ []) =
          substitute separator [separator] text ++ replace [escaper, separator] [separator] [] :=
      replace_escape hescaper fun _ => (Option.some_ne_none separator).symm
    rw [List.append_nil, substitute_singleton_self] at hreplace
    rw [hreplace]
    exact List.append_nil text
  rw [← hundo text, h, hundo]

lemma replace_eq_self (h : ¬ before <:+: text) : replace before after text = text := by
  induction text with
  | nil => rfl
  | cons c rest ih =>
      rw [replace_cons fun hprefix => h hprefix.isInfix, ih fun hpart => h (hpart.trans
        (List.suffix_cons c rest).isInfix)]

lemma replace_of_not_mem {c : Char} (h : c ∉ text) : replace (c :: before) after text = text :=
  replace_eq_self fun hpart => h (hpart.subset List.mem_cons_self)

lemma mem_of_mem_replaceFrom {skip : ℕ} {c : Char} (h : c ∈ replaceFrom before after skip text) :
    c ∈ after ∨ c ∈ text := by
  fun_induction replaceFrom before after skip text with
  | case1 skip => exact .inr h
  | case2 skip d rest ih => exact (ih h).imp_right (List.mem_cons_of_mem d)
  | case3 d rest hprefix ih =>
      rcases List.mem_append.1 h with h | h
      · exact .inl h
      · exact (ih h).imp_right (List.mem_cons_of_mem d)
  | case4 d rest hprefix ih =>
      rcases List.mem_cons.1 h with rfl | h
      · exact .inr List.mem_cons_self
      · exact (ih h).imp_right (List.mem_cons_of_mem d)

lemma mem_of_mem_replace {c : Char} (h : c ∈ replace before after text) : c ∈ after ∨ c ∈ text :=
  mem_of_mem_replaceFrom h

lemma replace_ne_nil (hafter : after ≠ []) (h : text ≠ []) : replace before after text ≠ [] := by
  cases text with
  | nil => exact absurd rfl h
  | cons c rest =>
      by_cases hprefix : before <+: c :: rest
      · rw [replace, replaceFrom, if_pos hprefix]
        exact List.append_ne_nil_of_left_ne_nil hafter _
      · rw [replace_cons hprefix]
        exact List.cons_ne_nil _ _

/-- What the text does not end with, it does not end with afterwards. -/
lemma getLast?_replace {c : Char} (hbefore : before ≠ []) (hafter : after ≠ [])
    (hc : after.getLast? ≠ some c) (h : text.getLast? ≠ some c) :
    (replace before after text).getLast? ≠ some c := by
  induction hlength : text.length using Nat.strongRecOn generalizing text with
  | ind n ih =>
      cases text with
      | nil => exact h
      | cons d rest =>
          by_cases hprefix : before <+: d :: rest
          · obtain ⟨rest', hrest'⟩ := hprefix
            have hshorter : rest'.length < n := by
              have hsum := congrArg List.length hrest'
              have hpos := List.length_pos_of_ne_nil hbefore
              rw [List.length_append] at hsum
              omega
            have hlast : rest'.getLast? ≠ some c := fun hlast => h (by
              rw [← hrest', List.getLast?_append, hlast]
              rfl)
            rw [← hrest', replace_append_self hbefore, List.getLast?_append]
            intro hor
            rcases Option.or_eq_some_iff.1 hor with hlast' | ⟨-, hlast'⟩
            · exact ih _ hshorter hlast rfl hlast'
            · exact hc hlast'
          · have hshorter : rest.length < n := by
              rw [← hlength]
              exact Nat.lt_succ_self _
            rw [replace_cons hprefix, List.getLast?_cons]
            cases hrest : (replace before after rest).getLast? with
            | none =>
                have hnil : rest = [] := by
                  by_contra hne
                  exact replace_ne_nil hafter hne (List.getLast?_eq_none_iff.1 hrest)
                rw [hnil] at h
                exact h
            | some e =>
                have hlast : rest.getLast? ≠ some c := fun hlast => h (by
                  rw [List.getLast?_cons, hlast]
                  rfl)
                exact hrest ▸ ih _ hshorter hlast rfl

lemma not_escaped_infix (htext : separator ∉ text) (hlast : text.getLast? ≠ some escaper)
    (hrest : escaper ∉ rest) : ¬ [escaper, separator] <:+: text ++ rest := by
  rintro ⟨start, ending, h⟩
  have hsplit : (start ++ [escaper]) ++ (separator :: ending) = text ++ rest := by
    rw [← h]
    simp
  rcases List.append_eq_append_iff.1 hsplit with ⟨middle, rfl, hmiddle⟩ | ⟨middle, hmiddle, rfl⟩
  · cases middle with
    | nil => exact hlast (by rw [List.append_nil]; exact List.getLast?_concat)
    | cons d middle =>
        obtain ⟨rfl, -⟩ := List.cons_eq_cons.1 hmiddle
        exact htext (List.mem_append_right _ List.mem_cons_self)
  · rcases List.eq_nil_or_concat middle with rfl | ⟨middle, d, rfl⟩
    · rw [List.append_nil] at hmiddle
      exact hlast (by rw [← hmiddle]; exact List.getLast?_concat)
    · rw [List.concat_eq_append, ← List.append_assoc] at hmiddle
      obtain ⟨-, hd⟩ := List.append_inj' hmiddle rfl
      obtain ⟨rfl, -⟩ := List.cons_eq_cons.1 hd
      refine hrest (List.mem_append_left _ ?_)
      rw [List.concat_eq_append]
      exact List.mem_concat_self

/-! ## Placeholders -/

/-- Nowhere is something else taken for a placeholder. -/
def Recoverable (separator : Char) (placeholder text : Text) : Prop :=
  ∀ rest, rest <:+ text → rest.head? ≠ some separator →
    ¬ placeholder <+: substitute separator placeholder rest

lemma recoverable_cons {c : Char} :
    Recoverable separator placeholder (c :: text) ↔
      (c ≠ separator → ¬ placeholder <+: substitute separator placeholder (c :: text)) ∧
        Recoverable separator placeholder text := by
  constructor
  · intro h
    refine ⟨fun hc => h _ (List.suffix_refl _) fun hhead => hc (Option.some_inj.1 hhead), ?_⟩
    exact fun rest hrest => h rest (hrest.trans (List.suffix_cons c text))
  · rintro ⟨hc, htext⟩ rest hrest hhead
    rcases List.suffix_cons_iff.1 hrest with rfl | hrest
    · exact hc fun heq => hhead (congrArg some heq)
    · exact htext rest hrest hhead

/-- What a placeholder begins with tells it from the text. -/
lemma recoverable_of_not_mem {c : Char} (h : c ∉ text) :
    Recoverable separator (c :: placeholder) text := by
  intro rest hrest hhead hprefix
  cases rest with
  | nil => exact List.cons_ne_nil _ _ (List.prefix_nil.1 hprefix)
  | cons d rest =>
      rw [substitute_cons_of_ne fun heq => hhead (congrArg some heq)] at hprefix
      obtain ⟨rfl, -⟩ := List.cons_prefix_cons.1 hprefix
      exact h (hrest.subset List.mem_cons_self)

/-- **Putting the separators back gives the text, exactly if nothing else is taken for a
placeholder.** -/
theorem replace_substitute_eq_iff (hplaceholder : placeholder ≠ []) :
    replace placeholder [separator] (substitute separator placeholder text) = text ↔
      Recoverable separator placeholder text := by
  induction text with
  | nil =>
      refine iff_of_true rfl fun rest hrest _ hprefix => hplaceholder ?_
      rw [List.suffix_nil.1 hrest] at hprefix
      exact List.prefix_nil.1 hprefix
  | cons c text ih =>
      rw [recoverable_cons]
      by_cases hc : c = separator
      · subst hc
        rw [substitute_cons_self, replace_append_self hplaceholder, List.singleton_append,
          List.cons_inj_right, ih]
        exact ⟨fun h => ⟨fun hne => absurd rfl hne, h⟩, fun h => h.2⟩
      · by_cases hprefix : placeholder <+: substitute separator placeholder (c :: text)
        · -- the separator is put where the text has another character
          refine iff_of_false ?_ fun h => h.1 hc hprefix
          obtain ⟨rest, hrest⟩ := hprefix
          rw [← hrest, replace_append_self hplaceholder]
          exact fun heq => hc (List.cons_eq_cons.1 heq).1.symm
        · have hskip := hprefix
          rw [substitute_cons_of_ne hc] at hskip ⊢
          rw [replace_cons hskip, List.cons_inj_right, ih]
          exact ⟨fun h => ⟨fun _ => hskip, h⟩, fun h => h.2⟩

/-- No proper end of the text is its beginning. -/
def Borderless (text : Text) : Prop :=
  ∀ start < text.length, 0 < start → ¬ text.drop start <+: text

instance : Decidable (Borderless text) :=
  inferInstanceAs (Decidable (∀ start < text.length, 0 < start → ¬ text.drop start <+: text))

/-- What has begun outside of a placeholder ends there as well. -/
lemma Borderless.prefix_of_prefix_substitute (hborderless : Borderless placeholder)
    {started rest : Text} (hplaceholder : placeholder = started ++ rest) (hstarted : started ≠ [])
    (h : rest <+: substitute separator placeholder text) : rest <+: text := by
  induction text generalizing started rest with
  | nil => exact h
  | cons c text ih =>
      by_cases hc : c = separator
      · subst hc
        rw [substitute_cons_self] at h
        have hlength : placeholder.length = started.length + rest.length := by
          rw [hplaceholder, List.length_append]
        have hpos : 0 < started.length := List.length_pos_of_ne_nil hstarted
        have hprefix : rest <+: placeholder :=
          List.prefix_of_prefix_length_le h (List.prefix_append _ _) (by omega)
        have hdrop : placeholder.drop started.length = rest := by
          rw [hplaceholder]
          exact List.drop_left
        -- the rest would be a border
        by_cases hstart : started.length < placeholder.length
        · exact absurd (hdrop ▸ hprefix) (hborderless _ hstart hpos)
        · have hrest : rest = [] := List.eq_nil_of_length_eq_zero (by omega)
          rw [hrest]
          exact List.nil_prefix
      · rw [substitute_cons_of_ne hc] at h
        cases rest with
        | nil => exact List.nil_prefix
        | cons d rest =>
            obtain ⟨hd, hrest⟩ := List.cons_prefix_cons.1 h
            subst hd
            rw [List.prefix_cons_inj]
            refine ih ?_ (List.append_ne_nil_of_right_ne_nil started (List.cons_ne_nil d [])) hrest
            rw [hplaceholder, List.append_assoc, List.singleton_append]

/-- **A placeholder without a border can be put into every text that does not contain it.** -/
theorem Borderless.recoverable (hborderless : Borderless placeholder)
    (htext : ¬ placeholder <:+: text) : Recoverable separator placeholder text := by
  intro rest hrest hhead hprefix
  refine htext (List.IsInfix.trans (List.IsPrefix.isInfix ?_) hrest.isInfix)
  cases rest with
  | nil => exact hprefix
  | cons c rest =>
      have hc : c ≠ separator := fun heq => hhead (congrArg some heq)
      rw [substitute_cons_of_ne hc] at hprefix
      rcases List.prefix_cons_iff.1 hprefix with hnil | ⟨ending, hplaceholder, hprefix⟩
      · rw [hnil]
        exact List.nil_prefix
      · have hstarted : placeholder = [c] ++ ending := hplaceholder
        rw [hplaceholder, List.prefix_cons_inj]
        exact hborderless.prefix_of_prefix_substitute hstarted (List.cons_ne_nil _ _) hprefix

/-! ## Splitting -/

lemma splitSkippingEmptyParts_cons_self :
    splitSkippingEmptyParts separator (separator :: rest) =
      splitSkippingEmptyParts separator rest := by
  rw [splitSkippingEmptyParts, ← List.nil_append (separator :: rest),
    List.splitOn_append_cons_self_of_not_mem List.not_mem_nil]
  rfl

lemma splitSkippingEmptyParts_append (hmem : separator ∉ text) (hne : text ≠ []) :
    splitSkippingEmptyParts separator (text ++ separator :: rest) =
      text :: splitSkippingEmptyParts separator rest := by
  rw [splitSkippingEmptyParts, List.splitOn_append_cons_self_of_not_mem hmem]
  exact List.filter_cons_of_pos (decide_eq_true hne)

lemma splitSkippingEmptyParts_singleton (hmem : separator ∉ text) (hne : text ≠ []) :
    splitSkippingEmptyParts separator text = [text] := by
  rw [splitSkippingEmptyParts, List.splitOn_eq_singleton hmem]
  exact List.filter_cons_of_pos (decide_eq_true hne)

/-- Fields, each with a separator in front of it. -/
lemma splitSkippingEmptyParts_fields {fields : List Text} (htext : separator ∉ text)
    (hne : text ≠ []) (hfields : ∀ field ∈ fields, separator ∉ field ∧ field ≠ []) :
    splitSkippingEmptyParts separator (text ++ fields.flatMap fun field => separator :: field) =
      text :: fields := by
  induction fields generalizing text with
  | nil => rw [List.flatMap_nil, List.append_nil, splitSkippingEmptyParts_singleton htext hne]
  | cons field fields ih =>
      obtain ⟨hfield, hfields⟩ := List.forall_mem_cons.1 hfields
      rw [List.flatMap_cons, List.cons_append, splitSkippingEmptyParts_append htext hne,
        ih hfield.1 hfield.2 hfields]

end Autobackup.QString
