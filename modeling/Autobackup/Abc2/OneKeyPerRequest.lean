import Mathlib
import Autobackup.Abc2.DistinctAddresses
import Autobackup.Abc2.SavedRequests

/-!
# A request consumes one key

Recovery of an interrupted request goes on at the page the account names, because the uuid may
be on a page before the set's newest one.  But `m_BitcoinKeySetPage_aka_PageY` also says which
page is to be filled: a recovery that finds the current-page document locked forgets the page of
the account, and after filling claims a key on the new page, whether or not the request has a key
on an old one.

As long as this skips no claim (`Process.SkipsNoClaim`), a request consumes one key and ends with
it (`one_key_per_request`).  Without the condition a request may consume two
(`two_keys_for_one_request`).

A request is named by the uuid that its account was locked with, and a place of a page by the set,
the page and its position.  The condition is about the step that would skip a claim, so recoveries
after any stop, and any number of tabs of one user, are within it as long as they look where the
account points.  That no two requests get one key needs no condition
(`Autobackup.Abc2.DistinctAddresses`).
-/

namespace Autobackup.Abc2

/-- Every uuid is claimed on one place of one page of one set, and a request that ends does so
with the key claimed for it. -/
structure OneKeyPerRequest (st : Db) : Prop where
  place : ∀ uuid setN pageY i place u setN' pageY' i' place' u',
    PlaceClaimed st setN pageY i place uuid u → PlaceClaimed st setN' pageY' i' place' uuid u' →
    setN = setN' ∧ pageY = pageY' ∧ i = i'
  completed : ∀ u c before after setN pageY uuid key,
    (st (.userAccount u)).docAt c = some before →
    (st (.userAccount u)).docAt (c + 1) = some after →
    before.bitcoinState = .GettingKey setN pageY uuid → after.bitcoinState = .HaveKey key →
    KeyClaimed st key uuid u ∧ ∀ key' u', KeyClaimed st key' uuid u' → key' = key

lemma RequestsOk.oneKeyPerRequest {sizes : KeySetSizes} {st₀ st : Db} (h : RequestsOk sizes st)
    (hkeys : KeysOk sizes st₀ st) : OneKeyPerRequest st where
  place _ _ _ _ _ _ _ _ _ _ _ hp hp' := h.place_unique hkeys hp hp'
  completed u c before after setN pageY uuid key hbefore hafter hgetting hhave := by
    obtain ⟨note, hversion⟩ := Cell.docAt_eq_some.1 hafter
    rcases h.versions (.userAccount u) c before _ hbefore hversion setN pageY uuid hgetting with
      ⟨pageY', hstays⟩ | ⟨key', hkey', hclaimed⟩
    · rw [hhave] at hstays
      cases hstays
    · rw [hhave] at hkey'
      obtain rfl := BitcoinState.HaveKey.inj hkey'
      refine ⟨hclaimed, fun key' u' hclaimed' => ?_⟩
      obtain ⟨n, y, i, place, hp, rfl⟩ := hclaimed
      obtain ⟨n', y', i', place', hp', rfl⟩ := hclaimed'
      obtain ⟨rfl, rfl, rfl⟩ := h.place_unique hkeys hp hp'
      rw [hkeys.placeClaimed_unique hp hp']

/-- **A get-key request consumes one key.**  In every run in which no step skips a claim, each uuid
is claimed on at most one place, and a request is completed with the key claimed for it.  A uuid on
two places would leave a key behind that is shown to nobody, and pages would be used up faster than
users ask.  The uuid counts over all versions of all pages, so a second claim cannot hide behind a
later version. -/
theorem one_key_per_request {ι : Type} [DecidableEq ι] {sizes : KeySetSizes} {w₀ w : System ι}
    (hstart : KeysStart w₀.store) (hprocesses : ∀ i, (w₀.client i).Initial)
    (hreach : Reaches (Process.act sizes) Process.SkipsNoClaim w₀ w) :
    OneKeyPerRequest w.store := by
  obtain ⟨hkeys, hrequests⟩ := requests_of_reaches hstart hprocesses hreach
  exact hrequests.oneKeyPerRequest hkeys

instance Process.decidableSkipsNoClaim (st : Db) (p : Process) (x : ProcessInput) :
    Decidable (p.SkipsNoClaim st x) := by
  unfold Process.SkipsNoClaim AddFunds.SkipsNoClaim
  split
  · split <;> infer_instance
  · infer_instance

/-- Two tabs of Anna, and one of Bob. -/
def threeTabs : System (Fin 3) where
  store := oneSet
  client i := .addFunds { currentlyLoggedInUsername := if i.val = 1 then "bob" else "anna" }

/-- Anna's first tab claims the key and is left there; her second tab takes over. -/
theorem one_key_per_request_takenOver :
    OneKeyPerRequest (threeTabs.run (Process.act ⟨1, 1, 1⟩)
      ((getBitcoinKey 1 6).map (0, ·) ++ (getBitcoinKey 3 9).map (2, ·))).store :=
  one_key_per_request oneSet_keysStart (fun _ => .addFunds _)
    (reaches_run_of_staysWithin (by decide +kernel))

/-- Anna's first tab claims the key of page 0 and is left there.  Bob's finds the page full, locks
the set for filling page 1 and is left there.  Anna's second tab finds the set locked, fills page
1 and claims the key of that page too. -/
theorem two_keys_for_one_request : ¬ ∀ w : System (Fin 3),
    Reaches (Process.act ⟨1, 1, 1⟩) anyStep threeTabs w → OneKeyPerRequest w.store := by
  intro hone
  let w := threeTabs.run (Process.act ⟨1, 1, 1⟩)
    ((getBitcoinKey 1 6).map (0, ·) ++ (getBitcoinKey 2 8).map (1, ·) ++
      (getBitcoinKey 3 9).map (2, ·))
  have hfirst : (w.store (.bitcoinKeySetPage 0 0)).current =
      some [{ key := "A", claimed := some (1, "anna") }] := by decide +kernel
  have hsecond : (w.store (.bitcoinKeySetPage 0 1)).current =
      some [{ key := "B", claimed := some (1, "anna") }] := by decide +kernel
  obtain ⟨-, hsame, -⟩ := (hone w (reaches_run _ _)).place 1 0 0 0 _ "anna" 0 1 0 _ "anna"
    ⟨_, _, hfirst, rfl, rfl⟩ ⟨_, _, hsecond, rfl, rfl⟩
  exact absurd hsame (by decide)

end Autobackup.Abc2
