import TeamDigest.Gather.Sources
import TeamDigest.Team.User

/-!
# Going down the hierarchy

The issues below some top-level issues are found breadth first: the children of
one issue are asked for at a time, the keys of new ones are put at the end of
the queue, and no key is ever asked for twice.  So a hierarchy with cycles comes
to an end too.  A hierarchy without end does not, which is why a scope has a
patience: the number of issues below which it looks at most.
-/

namespace TeamDigest.Gather

open Work Team

/-- What a gathering works with. -/
structure Scope where
  /-- Everybody who is known by name. -/
  users : List User
  /-- The organisations at the code host. -/
  orgs : List String
  window : Window
  /-- How many issues the children of which are asked for at most. -/
  patience : Nat

/-- The keys of the children that are not visited yet. -/
def newKeys (visited : List String) (children : List Issue) : List String :=
  (children.map Issue.key).filter fun key => key ∉ visited

variable {I : Interface}

/-- Asks for the children of the keys in the queue, and of the keys that come
up on the way, and puts them into `found`. -/
def walk (children : String → Plan I (List Issue)) (patience : Nat)
    (visited queue : List String) (found : IssueSet) : Plan I IssueSet :=
  match queue.dropWhile (· ∈ visited), patience with
  | [], _ => pure found
  | _ :: _, 0 => .fail .abandoned
  | key :: rest, patience + 1 => do
    let below ← children key
    let visited := key :: visited
    walk children patience visited (rest ++ newKeys visited below) (found.insertAll below)

/-- All issues below the given ones, at any depth. -/
def descendants (children : String → Plan I (List Issue)) (patience : Nat)
    (keys : List String) : Plan I IssueSet :=
  walk children patience [] keys ∅

end TeamDigest.Gather
