import TeamDigest.Service.Jira
import TeamDigest.Service.Linear

/-!
# Issue trackers

The trackers from which issues may come, behind one set of questions.
-/

namespace TeamDigest.Service

open Http Time Work

/-- An account at an issue tracker. -/
inductive Tracker where
  | jira (account : Jira.Account)
  | linear (account : Linear.Account)

namespace Tracker

/-- The issues with the given keys. -/
def issues (keys : List String) : Tracker → Client (List Issue)
  | jira a => a.issues keys
  | linear a => a.issues keys

/-- The issues directly under one. -/
def children (key : String) : Tracker → Client (List Issue)
  | jira a => a.children key
  | linear a => a.children key

/-- The newest comments on an issue, at most `limit` of them. -/
def comments (key : String) (limit : Nat) : Tracker → Client (List Comment)
  | jira a => a.comments key limit
  | linear a => a.comments key limit

/-- The issues completed by a person from `start` on and before `stop`. -/
def resolved (person : String) (start stop : Instant) : Tracker → Client (List Issue)
  | jira a => a.resolved person start stop
  | linear a => a.resolved person start stop

/-- How many issues a person completed from `start` on and before `stop`. -/
def resolvedCount (person : String) (start stop : Instant) (t : Tracker) : Client Nat := do
  let found ← t.resolved person start stop
  pure found.length

end Tracker

end TeamDigest.Service
