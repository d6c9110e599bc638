import Autobackup.Abc2.Session
import Autobackup.Abc2.Recoverer
import Autobackup.Abc2.TransactionCreditor
import Autobackup.Abc2.AddFunds

/-!
# The Abc2 programs around one store

A `Process` is a front end session, a recoverer, a run of the transaction creditor or an
add-funds tab; a `System` is a store and any number of processes of any kind.  A step performs
one store operation of one process (see `Autobackup.Foundation.Interleaving`).  Which process
steps next is up to the scheduler, and a process that stops for good is one the scheduler does
not pick again.

A process starts where its program starts: `Process.Initial`.
-/

namespace Autobackup.Abc2

inductive Process
  | session (s : Session)
  | recoverer (r : RecovererPhase)
  | creditor (c : Creditor)
  | addFunds (a : AddFunds)

inductive ProcessInput
  | session (x : SessionInput)
  | addFunds (x : AddFundsInput)
  /-- The recoverer and the creditor react to nothing but the store. -/
  | run

namespace Process

/-- The next action of whichever program the process is, over the one database of all of them. -/
def act (sizes : KeySetSizes) : Process → ProcessInput → DbAction Process
  | session s, .session x => (s.act x).map session
  | recoverer r, .run => r.act.map recoverer
  | creditor c, .run => c.act.map creditor
  | addFunds a, .addFunds x => (a.act sizes x).map addFunds
  | p, _ => .pause p

/-- The state a program starts in.  A session shows a campaign to nobody in particular, a tab has
not been looked at, a recoverer sleeps, and a creditor has the rows of its view query. -/
inductive Initial : Process → Prop
  | session (ajax : Bool) (campaign : CampaignKey) :
      Initial (.session { members := { ajax := ajax, campaign := campaign } })
  | recoverer : Initial (.recoverer .sleeping)
  | creditor (rows : List SlotKey) : Initial (.creditor (.creditTransactions rows))
  | addFunds (username : Username) :
      Initial (.addFunds { currentlyLoggedInUsername := username })

/-- Case rule for a step of a process: it is a step of its program, or nothing at all. -/
lemma perform_act {P : Db × Process → Prop} {sizes : KeySetSizes} {st : Db} {p : Process}
    {x : ProcessInput}
    (hsession : ∀ s y, p = session s →
      P ((perform st (s.act y)).1, session (perform st (s.act y)).2))
    (hrecoverer : ∀ r, p = recoverer r →
      P ((perform st r.act).1, recoverer (perform st r.act).2))
    (hcreditor : ∀ c, p = creditor c →
      P ((perform st c.act).1, creditor (perform st c.act).2))
    (haddFunds : ∀ a y, p = addFunds a →
      P ((perform st (a.act sizes y)).1, addFunds (perform st (a.act sizes y)).2))
    (hnothing : P (st, p)) :
    P (perform st (p.act sizes x)) := by
  cases p with
  | session s =>
      cases x with
      | session y =>
          rw [act, perform_map]
          exact hsession s y rfl
      | addFunds y => exact hnothing
      | run => exact hnothing
  | recoverer r =>
      cases x with
      | session y => exact hnothing
      | addFunds y => exact hnothing
      | run =>
          rw [act, perform_map]
          exact hrecoverer r rfl
  | creditor c =>
      cases x with
      | session y => exact hnothing
      | addFunds y => exact hnothing
      | run =>
          rw [act, perform_map]
          exact hcreditor c rfl
  | addFunds a =>
      cases x with
      | session y => exact hnothing
      | addFunds y =>
          rw [act, perform_map]
          exact haddFunds a y rfl
      | run => exact hnothing

end Process

/-- A store and the processes around it. -/
abbrev System (ι : Type) := World Note Doc Process ι

end Autobackup.Abc2
