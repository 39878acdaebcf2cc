import TeamDigest.Rollup.Recall

/-!
# Histories of a store

A store lives through steps: rollups are set, got and recalled, expired ones are
cleaned up, everything is cleared, or the store is opened again with another
lifetime.  A clock tells the time of each look at it.
-/

namespace TeamDigest.Rollup

open Time

/-- A store in use. -/
structure Desk where
  store : Store
  /-- The hours for which a rollup is recalled. -/
  lifetime : Nat
  /-- How often the clock was looked at. -/
  looks : Nat
  /-- The texts that the writer was asked to sum up, the latest first. -/
  written : List String

/-- A desk with an empty store. -/
def Desk.fresh (lifetime : Nat) : Desk := ⟨∅, lifetime, 0, []⟩

/-- What a step does. -/
inductive Step where
  | set (key rollup : String)
  | get (key : String)
  /-- Removes everything. -/
  | clear
  /-- Removes what has expired. -/
  | cleanup
  /-- Puts bytes under a key. -/
  | insertRaw (key : String) (bytes : ByteArray)
  /-- Opens the store again with another lifetime. -/
  | reopen (lifetime : Nat)
  /-- Recalls the rollup of a text; the writer, if asked, answers with `reply`. -/
  | rollup (text : String) (reply : Except Error String)

/-- What a step brings. -/
inductive Outcome where
  | nothing
  | rollup? (rollup : Option String)
  | count (removed : Nat)
  | rollup (rollup : String)
  deriving DecidableEq

namespace Desk

/-- Makes a move, with a clock that tells the time of each look and a writer. -/
def move (clock : Nat → Instant) (writer : String → Except Error String) : World moves Desk
  | .store operation, d =>
    let (answer, store) := d.store.perform operation
    (.ok answer, { d with store })
  | .now, d => (.ok (clock d.looks), { d with looks := d.looks + 1 })
  | .write text, d => (writer text, { d with written := text :: d.written })

/-- Carries out a plan, and says what it has brought. -/
def carryOut {α : Type} (clock : Nat → Instant) (reply : Except Error String) (plan : Plan moves α)
    (outcome : α → Outcome) (d : Desk) : Except Error Outcome × Desk :=
  let (result, d) := plan.run (move clock fun _ => reply) d
  (result.map outcome, d)

/-- Takes a step.  Only a recall has a use for the writer. -/
def step (clock : Nat → Instant) (d : Desk) : Step → Except Error Outcome × Desk
  | .set key rollup =>
    d.carryOut clock (.error .json) (Rollup.set key rollup) fun _ => .nothing
  | .get key => d.carryOut clock (.error .json) (Rollup.get d.lifetime key) .rollup?
  | .clear => d.carryOut clock (.error .json) Rollup.clear .count
  | .cleanup => d.carryOut clock (.error .json) (Rollup.cleanup d.lifetime) .count
  | .insertRaw key bytes => (.ok .nothing, { d with store := d.store.insert key bytes })
  | .reopen lifetime => (.ok .nothing, { d with lifetime })
  | .rollup text reply => d.carryOut clock reply (Rollup.rollup d.lifetime text) .rollup

/-- Takes several steps; every outcome stands with the desk after its step. -/
def history (clock : Nat → Instant) : Desk → List Step → List (Except Error Outcome × Desk)
  | _, [] => []
  | d, s :: steps =>
    let (outcome, d) := d.step clock s
    (outcome, d) :: d.history clock steps

end Desk

end TeamDigest.Rollup
