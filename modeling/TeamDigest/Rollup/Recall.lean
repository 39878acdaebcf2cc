import TeamDigest.Plan
import TeamDigest.Rollup.Entry
import TeamDigest.Rollup.Key
import TeamDigest.Store

/-!
# Recalling rollups

Rollups are costly, so a text is summed up once and its rollup recalled as long
as it has not expired.  The plans here make one move at a time: they operate on
the store, look at the clock, or have the writer sum up a text.  So several of
them may run side by side on one store, move by move.

A slot that holds something other than an entry makes a recall fail; it is not
written over, and a cleanup passes over it.
-/

namespace TeamDigest.Rollup

open Time

/-- An operation on the store, a look at the clock, or a call of the writer. -/
inductive Move where
  /-- Operates on the store. -/
  | store (operation : Store.Operation)
  /-- Looks at the clock. -/
  | now
  /-- Has the writer sum up a text. -/
  | write (text : String)

/-- What a move brings. -/
def Move.Answer : Move → Type
  | .store operation => operation.Answer
  | .now => Instant
  | .write _ => String

/-- The moves with which rollups are recalled. -/
def moves : Interface := ⟨Move, Move.Answer⟩

/-- Operates on the store. -/
def operate (operation : Store.Operation) : Plan moves operation.Answer :=
  .ask (Move.store operation) .done

/-- The rollup under a key, unless it has expired; then its slot is dropped. -/
def get (lifetime : Nat) (key : String) : Plan moves (Option String) :=
  .ask (Move.store (.look key)) fun
    | none => .done none
    | some bytes =>
      match Entry.read? bytes with
      | none => .fail .json
      | some entry =>
        .ask Move.now fun now =>
          if entry.isExpired lifetime now then
            .ask (Move.store (.drop key)) fun _ => .done none
          else .done (some entry.rollup)

/-- Keeps a rollup under a key. -/
def set (key rollup : String) : Plan moves Unit :=
  .ask Move.now fun now =>
    .ask (Move.store (.put key (Entry.write ⟨rollup, now⟩))) fun _ => operate .flush

/-- Drops all slots and tells how many there were. -/
def clear : Plan moves Nat := do
  let removed ← operate .count
  operate .clear
  operate .flush
  pure removed

/-- Drops those of some slots that hold an entry which has expired, one after
the other, and tells how many they were. -/
def sweep (lifetime : Nat) : List (String × ByteArray) → Plan moves Nat
  | [] => .done 0
  | (key, bytes) :: slots =>
    match Entry.read? bytes with
    | none => sweep lifetime slots
    | some entry =>
      .ask Move.now fun now =>
        if entry.isExpired lifetime now then
          .ask (Move.store (.drop key)) fun _ => (· + 1) <$> sweep lifetime slots
        else sweep lifetime slots

/-- Drops the slots that hold an entry which has expired and tells how many they
were. -/
def cleanup (lifetime : Nat) : Plan moves Nat := do
  let removed ← sweep lifetime (← operate .list)
  operate .flush
  pure removed

/-- The rollup of a text, recalled or else asked of the writer and kept. -/
def rollup (lifetime : Nat) (text : String) : Plan moves String := do
  match ← get lifetime (key text) with
  | some rollup => pure rollup
  | none =>
    let rollup ← .ask (Move.write text) .done
    set (key text) rollup
    pure rollup

end TeamDigest.Rollup
