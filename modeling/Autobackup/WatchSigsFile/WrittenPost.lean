import Mathlib.Data.List.Basic

/-!
# Writing a post to postnews

`generateMessageIdAndPostToUsenet` writes a post to the input of postnews.  `QIODevice::write` may
take less than it is given, so the loop takes what was written off the post and counts it.  It
compares the count with the length of what is left, and not with the length of the post, and so it
stops as soon as half of the post is written (`writesOutWhole_iff`).

How much is taken may depend on which call it is and on what it is given, as a pipe takes what it
has room for.  Left out are errors of the device, which end the loop in the source as well.
-/

namespace Autobackup.WatchSigsFile

abbrev PostBytes := List UInt8

/-- What `QIODevice::write` returns, for each call and what it is given; `none` is -1. -/
structure WriteChannel where
  write : ℕ → PostBytes → Option ℕ
  accepts : ∀ {call post n}, post ≠ [] → write call post = some n → 1 ≤ n ∧ n ≤ post.length

/-- What was accepted, and whether a call returned -1. -/
structure WrittenPost where
  accepted : PostBytes
  failed : Bool

variable (d : WriteChannel)

/-- The loop; `none` when it is still running. -/
def writeLoop : ℕ → ℕ → PostBytes → ℕ → PostBytes → Option WrittenPost
  | 0, _, _, _, _ => none
  | fuel + 1, call, post, writtenToPostNewsProcess, accepted =>
      if writtenToPostNewsProcess < post.length then
        match d.write call post with
        | none => some ⟨accepted, true⟩
        | some writtenThisTime =>
            if writtenThisTime = post.length then
              some ⟨accepted ++ post.take writtenThisTime, false⟩
            else
              writeLoop fuel (call + 1) (post.drop writtenThisTime)
                (writtenToPostNewsProcess + writtenThisTime)
                (accepted ++ post.take writtenThisTime)
      else some ⟨accepted, false⟩

/-- **The loop ends, and the post was accepted whole** unless a call returned -1. -/
def WritesOutWhole (post : PostBytes) : Prop :=
  ∃ fuel written, writeLoop d fuel 0 post 0 [] = some written ∧
    (written.failed = false → written.accepted = post)

/-- From a call on, what is left in front of another one if what is left is written each time. -/
inductive LeftAfter : ℕ → PostBytes → ℕ → PostBytes → Prop
  | refl (call : ℕ) (post : PostBytes) : LeftAfter call post call post
  | write {call call' n : ℕ} {post rest : PostBytes} (hwrite : d.write call post = some n)
      (h : LeftAfter (call + 1) (post.drop n) call' rest) : LeftAfter call post call' rest

variable {d} {call written fuel : ℕ} {post rest accepted : PostBytes}

/-- What is written gets less. -/
lemma exists_writeLoop (call written : ℕ) (post accepted : PostBytes) :
    ∃ fuel w, writeLoop d fuel call post written accepted = some w := by
  induction hlength : post.length using Nat.strongRecOn
    generalizing call written post accepted with
  | ind length ih =>
      by_cases hlt : written < post.length
      · cases hwrite : d.write call post with
        | none => exact ⟨1, _, by rw [writeLoop, if_pos hlt, hwrite]⟩
        | some n =>
            have hne : post ≠ [] := List.ne_nil_of_length_pos (Nat.zero_lt_of_lt hlt)
            obtain ⟨hone, -⟩ := d.accepts hne hwrite
            by_cases hwhole : n = post.length
            · refine ⟨1, ⟨accepted ++ post.take n, false⟩, ?_⟩
              rw [writeLoop, if_pos hlt, hwrite]
              exact if_pos hwhole
            · have hless : (post.drop n).length < length := by
                rw [List.length_drop]
                omega
              obtain ⟨fuel, w, hw⟩ := ih _ hless (call + 1) (written + n) (post.drop n)
                (accepted ++ post.take n) rfl
              refine ⟨fuel + 1, w, ?_⟩
              rw [writeLoop, if_pos hlt, hwrite]
              exact (if_neg hwhole).trans hw
      · exact ⟨1, _, by rw [writeLoop, if_neg hlt]⟩

/-- Nothing is left behind a post that was written whole. -/
lemma LeftAfter.eq_nil {call' : ℕ} (h : LeftAfter d call post call' rest) (hnil : post = []) :
    rest = [] := by
  induction h with
  | refl => exact hnil
  | write _ _ ih =>
      apply ih
      rw [hnil, List.drop_nil]

/-- The loop is at a post of which something is left. -/
lemma writeLoop_iff (call : ℕ) (accepted : PostBytes) (hrest : rest ≠ [])
    (hpost : accepted ++ rest = post) :
    (∃ fuel w, writeLoop d fuel call rest accepted.length accepted = some w ∧
        (w.failed = false → w.accepted = post)) ↔
      ∀ call' rest', LeftAfter d call rest call' rest' → rest' ≠ [] →
        post.length < 2 * rest'.length := by
  have hlength : accepted.length + rest.length = post.length := by
    rw [← hpost, List.length_append]
  induction hsize : rest.length using Nat.strongRecOn
    generalizing call rest accepted with
  | ind size ih =>
      by_cases hlt : accepted.length < rest.length
      · cases hwrite : d.write call rest with
        | none =>
            refine iff_of_true ⟨1, ⟨accepted, true⟩, ?_, nofun⟩ fun call' rest' hleft _ => ?_
            · rw [writeLoop, if_pos hlt, hwrite]
            · cases hleft with
              | refl => omega
              | write hwrite' _ => exact absurd (hwrite.symm.trans hwrite') nofun
        | some n =>
            obtain ⟨hone, hn⟩ := d.accepts hrest hwrite
            by_cases hwhole : n = rest.length
            · refine iff_of_true ⟨1, ⟨accepted ++ rest.take n, false⟩, ?_, fun _ => ?_⟩
                fun call' rest' hleft hne => ?_
              · rw [writeLoop, if_pos hlt, hwrite]
                exact if_pos hwhole
              · rw [hwhole, List.take_length]
                exact hpost
              · cases hleft with
                | refl => omega
                | write hwrite' hleft =>
                    obtain rfl := Option.some.inj (hwrite.symm.trans hwrite')
                    rw [hwhole, List.drop_length] at hleft
                    exact absurd (hleft.eq_nil rfl) hne
            · have hloop : ∀ fuel, writeLoop d (fuel + 1) call rest accepted.length accepted =
                  writeLoop d fuel (call + 1) (rest.drop n) (accepted ++ rest.take n).length
                    (accepted ++ rest.take n) := by
                intro fuel
                rw [writeLoop, if_pos hlt, hwrite, List.length_append, List.length_take,
                  Nat.min_eq_left hn]
                exact if_neg hwhole
              have hdrop : (rest.drop n).length = rest.length - n := List.length_drop
              have hleftover : rest.drop n ≠ [] := by
                apply List.ne_nil_of_length_pos
                omega
              have hwritten : (accepted ++ rest.take n) ++ rest.drop n = post := by
                rw [List.append_assoc, List.take_append_drop, hpost]
              have hrec := ih _ (by omega) (call + 1) _ hleftover hwritten
                (by rw [← hwritten, ← List.length_append]) rfl
              constructor
              · rintro ⟨fuel, w, hw, hwhole⟩ call' rest' hleft hne
                cases hleft with
                | refl => omega
                | write hwrite' hleft =>
                    obtain rfl := Option.some.inj (hwrite.symm.trans hwrite')
                    cases fuel with
                    | zero => exact absurd hw nofun
                    | succ fuel =>
                        rw [hloop] at hw
                        exact hrec.1 ⟨fuel, w, hw, hwhole⟩ call' rest' hleft hne
              · intro h
                obtain ⟨fuel, w, hw, hwhole⟩ := hrec.2 fun call' rest' hleft hne =>
                  h call' rest' (.write hwrite hleft) hne
                exact ⟨fuel + 1, w, (hloop fuel).trans hw, hwhole⟩
      · refine iff_of_false ?_ fun h => ?_
        · rintro ⟨fuel, w, hw, hwhole⟩
          cases fuel with
          | zero => exact absurd hw nofun
          | succ fuel =>
              rw [writeLoop, if_neg hlt] at hw
              obtain rfl := Option.some.inj hw
              have haccepted : accepted = accepted ++ rest := (hwhole rfl).trans hpost.symm
              exact hrest (List.append_right_eq_self.1 haccepted.symm)
        · have hmore := h call rest (.refl call rest) hrest
          omega

/-- **The post is written out whole if and only if**, whenever something of it is left in front of a
call, this is more than half of it.

A device that takes everything at once meets the condition, and one that takes a byte at a time does
not for any post of more than one byte. postnews then gets half a post and is told that this was
all. -/
theorem writesOutWhole_iff : WritesOutWhole d post ↔
    ∀ call rest, LeftAfter d 0 post call rest → rest ≠ [] → post.length < 2 * rest.length := by
  by_cases hpost : post = []
  · subst hpost
    refine iff_of_true ⟨1, ⟨[], false⟩, rfl, fun _ => rfl⟩ fun call rest hleft hne => ?_
    exact absurd (hleft.eq_nil rfl) hne
  · exact writeLoop_iff 0 [] hpost (List.nil_append post)

/-- One byte is accepted at a time. -/
def oneByteAtATime : WriteChannel where
  write _ _ := some 1
  accepts hne h := by
    obtain rfl := Option.some.inj h
    exact ⟨Nat.le_refl 1, List.length_pos_of_ne_nil hne⟩

theorem not_writesOutWhole_oneByteAtATime : ¬ ∀ d post, post ≠ [] → WritesOutWhole d post := by
  intro h
  obtain ⟨fuel, w, hw, hwhole⟩ := h oneByteAtATime [65, 10] (List.cons_ne_nil _ _)
  cases fuel with
  | zero => exact absurd hw nofun
  | succ fuel =>
      cases fuel with
      | zero => exact absurd hw nofun
      | succ fuel =>
          obtain rfl := Option.some.inj hw
          exact absurd (hwhole rfl) nofun

end Autobackup.WatchSigsFile
