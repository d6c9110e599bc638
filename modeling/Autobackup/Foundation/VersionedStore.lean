import Mathlib.Algebra.BigOperators.Group.List.Basic
import Mathlib.Data.List.Infix
import Mathlib.Logic.Function.Basic

/-!
# Keyed documents with check-and-set

A document store in the manner of memcached and couchbase: every key holds at most one current
document, `add` succeeds exactly when the key is absent, and `set` with a check-and-set number
(CAS) `c` succeeds exactly when `c` is the number of the document's current version.

A `Cell` keeps *every* version ever written to its key, oldest first.  The CAS of a version is
its position in that list, counted from one, so CAS values are never reused and `0` is free to
stand for "no CAS given".  Keeping the old versions changes nothing a client can see (`get`
returns the newest one) and makes the reasoning monotone: a cell only ever grows at its end, so
whatever a client learnt about the version with CAS `c` stays true for ever, and if a `set`
with `c` is accepted then the document it replaces is the one the client saw.

Every version also carries a *note* chosen by the writer.  Notes are history variables: `get`
does not return them, so no client can act on one.  They record why a version was written, and
the accounting statements made about a cell are statements about its notes.
-/

namespace Autobackup

/-- One version of a document, together with the note its writer left. -/
structure Version (ν α : Type) where
  /-- Why the version was written; invisible to clients. -/
  note : ν
  /-- The document itself. -/
  doc : α
  deriving DecidableEq, Repr

/-- All versions of the document under one key, oldest first. -/
structure Cell (ν α : Type) where
  versions : List (Version ν α)
  deriving DecidableEq, Repr

namespace Cell

variable {ν α : Type}

/-- The key does not exist. -/
def absent : Cell ν α := ⟨[]⟩

/-- The CAS of the current version; `0` when the key does not exist. -/
def cas (x : Cell ν α) : ℕ := x.versions.length

/-- The version whose CAS is `c`. -/
def version (x : Cell ν α) : ℕ → Option (Version ν α)
  | 0 => none
  | c + 1 => x.versions[c]?

/-- The document whose CAS is `c`. -/
def docAt (x : Cell ν α) (c : ℕ) : Option α := (x.version c).map Version.doc

/-- What a client reads: the current document and its CAS. -/
def get (x : Cell ν α) : Option (ℕ × α) := (x.docAt x.cas).map fun d => (x.cas, d)

/-- The current document. -/
def current (x : Cell ν α) : Option α := x.docAt x.cas

/-- Write a new version. -/
def push (x : Cell ν α) (n : ν) (d : α) : Cell ν α := ⟨x.versions ++ [⟨n, d⟩]⟩

/-- The notes of all versions, oldest first. -/
def notes (x : Cell ν α) : List ν := x.versions.map Version.note

/-- The documents of all versions, oldest first. -/
def docs (x : Cell ν α) : List α := x.versions.map Version.doc

/-- The cell `y` is `x` with zero or more versions written after it. -/
instance : LE (Cell ν α) := ⟨fun x y => x.versions <+: y.versions⟩

lemma le_refl (x : Cell ν α) : x ≤ x := List.prefix_rfl

lemma le_trans {x y z : Cell ν α} (hxy : x ≤ y) (hyz : y ≤ z) : x ≤ z :=
  List.IsPrefix.trans hxy hyz

lemma le_push (x : Cell ν α) (n : ν) (d : α) : x ≤ x.push n d := List.prefix_append _ _

/-! ## Versions and CAS numbers -/

@[simp] lemma cas_absent : (absent : Cell ν α).cas = 0 := rfl

@[simp] lemma version_absent (c : ℕ) : (absent : Cell ν α).version c = none := by
  cases c <;> rfl

@[simp] lemma docAt_absent (c : ℕ) : (absent : Cell ν α).docAt c = none := by simp [docAt]

@[simp] lemma cas_push (x : Cell ν α) (n : ν) (d : α) : (x.push n d).cas = x.cas + 1 := by
  simp [cas, push]

@[simp] lemma notes_push (x : Cell ν α) (n : ν) (d : α) :
    (x.push n d).notes = x.notes ++ [n] := by
  simp [notes, push]

@[simp] lemma version_zero (x : Cell ν α) : x.version 0 = none := rfl

@[simp] lemma docAt_zero (x : Cell ν α) : x.docAt 0 = none := rfl

lemma version_push (x : Cell ν α) (n : ν) (d : α) (c : ℕ) :
    (x.push n d).version c = if c = x.cas + 1 then some ⟨n, d⟩ else x.version c := by
  cases c with
  | zero => simp [version]
  | succ c =>
      simp only [version, push, cas, Nat.add_right_cancel_iff]
      split
      · next h => simp [h]
      · next h =>
          rcases Nat.lt_or_gt_of_ne h with hlt | hgt
          · rw [List.getElem?_append_left hlt]
          · rw [List.getElem?_eq_none (by simp; omega), List.getElem?_eq_none (by omega)]

lemma docAt_push (x : Cell ν α) (n : ν) (d : α) (c : ℕ) :
    (x.push n d).docAt c = if c = x.cas + 1 then some d else x.docAt c := by
  rw [docAt, version_push]
  split <;> rfl

@[simp] lemma version_push_self (x : Cell ν α) (n : ν) (d : α) :
    (x.push n d).version (x.cas + 1) = some ⟨n, d⟩ := by
  simp [version_push]

@[simp] lemma docAt_push_self (x : Cell ν α) (n : ν) (d : α) :
    (x.push n d).docAt (x.cas + 1) = some d := by
  simp [docAt_push]

lemma version_bounds {x : Cell ν α} {c : ℕ} {v : Version ν α} (h : x.version c = some v) :
    0 < c ∧ c ≤ x.cas := by
  cases c with
  | zero => simp at h
  | succ c =>
      obtain ⟨hlt, -⟩ := List.getElem?_eq_some_iff.1 h
      exact ⟨Nat.succ_pos c, hlt⟩

lemma docAt_eq_some {x : Cell ν α} {c : ℕ} {d : α} :
    x.docAt c = some d ↔ ∃ n, x.version c = some ⟨n, d⟩ := by
  rw [docAt, Option.map_eq_some_iff]
  constructor
  · rintro ⟨⟨n, d'⟩, hv, rfl⟩
    exact ⟨n, hv⟩
  · rintro ⟨n, hv⟩
    exact ⟨_, hv, rfl⟩

lemma docAt_bounds {x : Cell ν α} {c : ℕ} {d : α} (h : x.docAt c = some d) :
    0 < c ∧ c ≤ x.cas := by
  obtain ⟨n, hv⟩ := docAt_eq_some.1 h
  exact version_bounds hv

lemma exists_version {x : Cell ν α} {c : ℕ} (h0 : 0 < c) (hc : c ≤ x.cas) :
    ∃ v, x.version c = some v := by
  obtain ⟨c, rfl⟩ : ∃ e, c = e + 1 := ⟨c - 1, by omega⟩
  exact ⟨_, List.getElem?_eq_getElem hc⟩

lemma exists_docAt {x : Cell ν α} {c : ℕ} (h0 : 0 < c) (hc : c ≤ x.cas) :
    ∃ d, x.docAt c = some d := by
  obtain ⟨v, hv⟩ := exists_version h0 hc
  exact ⟨v.doc, docAt_eq_some.2 ⟨v.note, hv⟩⟩

/-- Versions are never rewritten. -/
lemma version_mono {x y : Cell ν α} (hxy : x ≤ y) {c : ℕ} {v : Version ν α}
    (h : x.version c = some v) : y.version c = some v := by
  cases c with
  | zero => simp at h
  | succ c =>
      obtain ⟨hlt, -⟩ := List.getElem?_eq_some_iff.1 h
      obtain ⟨later, hlater⟩ := hxy
      rw [version, ← hlater, List.getElem?_append_left hlt]
      exact h

lemma docAt_mono {x y : Cell ν α} (hxy : x ≤ y) {c : ℕ} {d : α}
    (h : x.docAt c = some d) : y.docAt c = some d := by
  obtain ⟨n, hv⟩ := docAt_eq_some.1 h
  exact docAt_eq_some.2 ⟨n, version_mono hxy hv⟩

lemma cas_mono {x y : Cell ν α} (hxy : x ≤ y) : x.cas ≤ y.cas := hxy.length_le

lemma docAt_eq_of_le {x y : Cell ν α} (hxy : x ≤ y) {c : ℕ} (hc : c ≤ x.cas) :
    y.docAt c = x.docAt c := by
  rcases Nat.eq_zero_or_pos c with rfl | h0
  · simp
  · obtain ⟨d, hd⟩ := exists_docAt h0 hc
    rw [hd, docAt_mono hxy hd]

lemma get_eq_some {x : Cell ν α} {c : ℕ} {d : α} :
    x.get = some (c, d) ↔ c = x.cas ∧ x.docAt c = some d := by
  simp only [get, Option.map_eq_some_iff, Prod.mk.injEq]
  constructor
  · rintro ⟨d', hd, rfl, rfl⟩
    exact ⟨rfl, hd⟩
  · rintro ⟨rfl, hd⟩
    exact ⟨d, hd, rfl, rfl⟩

lemma exists_get {x : Cell ν α} {d : α} (h : x.current = some d) : ∃ c, x.get = some (c, d) :=
  ⟨x.cas, Option.map_eq_some_iff.2 ⟨d, h, rfl⟩⟩

lemma get_eq_none {x : Cell ν α} : x.get = none ↔ x.cas = 0 := by
  constructor
  · intro h
    by_contra hne
    obtain ⟨d, hd⟩ := exists_docAt (Nat.pos_of_ne_zero hne) (Nat.le_refl x.cas)
    simp [get, hd] at h
  · intro h
    simp [get, h]

@[simp] lemma docs_push (x : Cell ν α) (n : ν) (d : α) : (x.push n d).docs = x.docs ++ [d] := by
  simp [docs, push]

@[simp] lemma length_docs (x : Cell ν α) : x.docs.length = x.cas := by
  simp [docs, cas]

lemma current_eq_getLast? (x : Cell ν α) : x.current = x.docs.getLast? := by
  rw [List.getLast?_eq_getElem?, length_docs, current]
  rcases hcas : x.cas with _ | c
  · have : x.docs = [] := List.eq_nil_of_length_eq_zero (by rw [length_docs, hcas])
    simp [this]
  · simp [docAt, version, docs]

lemma current_push (x : Cell ν α) (n : ν) (d : α) : (x.push n d).current = some d := by
  simp [current]

/-! ## Relating consecutive versions -/

/-- Every version after the first is related to its predecessor. -/
def Chain (R : α → ν → α → Prop) (x : Cell ν α) : Prop :=
  ∀ c d v, x.docAt c = some d → x.version (c + 1) = some v → R d v.note v.doc

lemma Chain.push {R : α → ν → α → Prop} {x : Cell ν α} (h : x.Chain R) {n : ν} {d : α}
    (hR : ∀ e, x.current = some e → R e n d) : (x.push n d).Chain R := by
  intro c e v he hv
  have hb := version_bounds hv
  rw [cas_push] at hb
  rw [docAt_push, if_neg (by omega)] at he
  rw [version_push] at hv
  split at hv
  · next hc =>
      obtain rfl : c = x.cas := by omega
      obtain rfl := Option.some.inj hv
      exact hR e he
  · exact h c e v he hv

lemma Chain.imp {R S : α → ν → α → Prop} {x : Cell ν α} (h : x.Chain R)
    (hRS : ∀ d n e, R d n e → S d n e) : x.Chain S :=
  fun c d v hd hv => hRS _ _ _ (h c d v hd hv)

/-- A property that is transported along every step and holds of the version `c` holds of every
later version. -/
lemma Chain.later {R : α → ν → α → Prop} {x : Cell ν α} (h : x.Chain R) {P : α → Prop}
    (hP : ∀ d n e, P d → R d n e → P e) {c e : ℕ} {d d' : α} (hce : c ≤ e)
    (hd : x.docAt c = some d) (hd' : x.docAt e = some d') (hPd : P d) : P d' := by
  induction hce generalizing d' with
  | refl =>
      rw [hd] at hd'
      exact Option.some.inj hd' ▸ hPd
  | @step m hcm ih =>
      obtain ⟨n, hv⟩ := docAt_eq_some.1 hd'
      have hle : c ≤ m := hcm
      have hb := docAt_bounds hd
      have hm := version_bounds hv
      obtain ⟨dm, hdm⟩ := exists_docAt (x := x) (c := m) (by omega) (by omega)
      exact hP _ _ _ (ih hdm) (h m dm _ hdm hv)

lemma notes_getElem? (x : Cell ν α) (c : ℕ) :
    x.notes[c]? = (x.version (c + 1)).map Version.note := by
  simp [notes, version]

/-- If every step changes `f` by what its note says, then between two versions `f` changes by the
sum over the notes in between. -/
lemma Chain.sum {M : Type} [AddMonoid M] {R : α → ν → α → Prop} {x : Cell ν α}
    (h : x.Chain R) {f : α → M} {g : ν → M} (hR : ∀ d n e, R d n e → f e = f d + g n) {c e : ℕ}
    {d d' : α} (hce : c ≤ e) (hd : x.docAt c = some d) (hd' : x.docAt e = some d') :
    f d' = f d + (((x.notes.take e).drop c).map g).sum := by
  induction hce generalizing d' with
  | refl =>
      rw [hd] at hd'
      obtain rfl := Option.some.inj hd'
      simp
  | @step m hcm ih =>
      have hle : c ≤ m := hcm
      obtain ⟨n, hv⟩ := docAt_eq_some.1 hd'
      have hb := docAt_bounds hd
      have hm := version_bounds hv
      obtain ⟨dm, hdm⟩ := exists_docAt (x := x) (c := m) (by omega) (by omega)
      have hlast : x.notes[m]? = some n := by rw [notes_getElem?, hv]; rfl
      have hlength : x.notes.length = x.cas := by simp [notes, cas]
      calc f d' = f dm + g n := hR _ _ _ (h m dm _ hdm hv)
        _ = f d + (((x.notes.take m).drop c).map g).sum + g n := by rw [ih hdm]
        _ = f d + (((x.notes.take (m + 1)).drop c).map g).sum := by
            rw [List.take_add_one, hlast, List.drop_append_of_le_length (by
              rw [List.length_take]; omega)]
            simp [add_assoc]

/-! ## Counting notes -/

/-- If `f` is defined at one place of the list at most, filtering finds nothing or that place. -/
lemma filterMap_of_unique {β : Type} {l : List ν} {f : ν → Option β}
    (h : ∀ (i j : ℕ) n n' b b', l[i]? = some n → l[j]? = some n' → f n = some b → f n' = some b' →
      i = j) :
    l.filterMap f = [] ∨
      ∃ (i : ℕ) (n : ν) (b : β), l[i]? = some n ∧ f n = some b ∧ l.filterMap f = [b] := by
  induction l with
  | nil => exact .inl rfl
  | cons a l ih =>
      have htail := ih fun i j n n' b b' hn hn' hb hb' =>
        Nat.succ.inj (h (i + 1) (j + 1) n n' b b' hn hn' hb hb')
      cases ha : f a with
      | none =>
          rw [List.filterMap_cons_none ha]
          rcases htail with hnil | ⟨i, n, b, hn, hb, heq⟩
          · exact .inl hnil
          · exact .inr ⟨i + 1, n, b, hn, hb, heq⟩
      | some b =>
          rw [List.filterMap_cons_some ha]
          rcases htail with hnil | ⟨i, n, b', hn, hb, -⟩
          · exact .inr ⟨0, a, b, rfl, ha, by rw [hnil]⟩
          · exact absurd (h 0 (i + 1) a n b b' rfl hn ha hb) (by omega)

/-- The same, for the notes of a cell in terms of CAS numbers. -/
lemma notes_filterMap_of_unique {β : Type} {x : Cell ν α} {f : ν → Option β}
    (h : ∀ c c' v v' b b', x.version c = some v → x.version c' = some v' → f v.note = some b →
      f v'.note = some b' → c = c') :
    x.notes.filterMap f = [] ∨
      ∃ c v b, x.version c = some v ∧ f v.note = some b ∧ x.notes.filterMap f = [b] := by
  have hversion {i : ℕ} {n : ν} (hn : x.notes[i]? = some n) :
      ∃ v, x.version (i + 1) = some v ∧ v.note = n := by
    rw [notes_getElem?, Option.map_eq_some_iff] at hn
    exact hn
  rcases filterMap_of_unique (l := x.notes) (f := f) (fun i j n n' b b' hn hn' hb hb' => by
    obtain ⟨v, hv, rfl⟩ := hversion hn
    obtain ⟨v', hv', rfl⟩ := hversion hn'
    exact Nat.succ.inj (h _ _ v v' b b' hv hv' hb hb')) with hnil | ⟨i, n, b, hn, hb, heq⟩
  · exact .inl hnil
  · obtain ⟨v, hv, rfl⟩ := hversion hn
    exact .inr ⟨i + 1, v, b, hv, hb, heq⟩

lemma mem_notes {x : Cell ν α} {c : ℕ} {v : Version ν α} (h : x.version c = some v) :
    v.note ∈ x.notes := by
  obtain ⟨c, rfl⟩ : ∃ e, c = e + 1 := ⟨c - 1, by have := version_bounds h; omega⟩
  refine List.mem_of_getElem? (i := c) ?_
  rw [notes_getElem?, h]
  rfl

end Cell

/-! ## Stores -/

/-- A store: one cell for every key.  The type of document is determined by the key. -/
abbrev Store (ν : Type) {κ : Type} (Doc : κ → Type) : Type := (k : κ) → Cell ν (Doc k)

namespace Store

variable {ν κ : Type} {Doc : κ → Type} [DecidableEq κ]

/-- Write a new version under `k`. -/
def push (st : Store ν Doc) (k : κ) (n : ν) (d : Doc k) : Store ν Doc :=
  Function.update st k ((st k).push n d)

@[simp] lemma push_self (st : Store ν Doc) (k : κ) (n : ν) (d : Doc k) :
    st.push k n d k = (st k).push n d := by
  simp [push]

@[simp] lemma push_of_ne (st : Store ν Doc) {k k' : κ} (h : k' ≠ k) (n : ν) (d : Doc k) :
    st.push k n d k' = st k' := by
  simp [push, h]

/-- After a write over the current version, whose CAS is `c`, the next CAS names what was
written. -/
lemma docAt_push_next {st : Store ν Doc} {k : κ} {c : ℕ} (hc : c = (st k).cas) (n : ν)
    (d : Doc k) : (st.push k n d k).docAt (c + 1) = some d := by
  rw [push_self, hc, Cell.docAt_push_self]

lemma le_push (st : Store ν Doc) (k : κ) (n : ν) (d : Doc k) : st ≤ st.push k n d := by
  intro k'
  by_cases h : k' = k
  · subst h
    rw [push_self]
    exact Cell.le_push _ _ _
  · rw [push_of_ne st h]
    exact Cell.le_refl _

end Store

end Autobackup
