import TeamDigest.Config
import TeamDigest.Error
import TeamDigest.Text.Blank

/-!
# Valid configurations

A configuration is valid when its numbers and addresses are usable, no two
projects share an id or take that of the project of untracked work, and
everybody has a name.  The first thing that is wrong decides the fault.
-/

namespace TeamDigest.Config

open Team

/-- What is wrong with the numbers. -/
def numberFault? (c : Config) : Option ConfigFault :=
  if c.timespanDays = 0 then some .zeroTimespan
  else if c.storeLifetime = 0 then some .zeroLifetime
  else none

/-- Holds of addresses of the web. -/
def isWebAddress (address : String) : Bool :=
  "https://".toList.isPrefixOf address.toList || "http://".toList.isPrefixOf address.toList

/-- What is wrong with the tracker. -/
def trackerFault? (c : Config) : Option ConfigFault :=
  match c.tracker with
  | .jira baseUrl _ _ => if isWebAddress baseUrl then none else some .trackerUrl
  | .linear _ => none

/-- What is wrong with the ids of projects, given those of earlier ones. -/
def idFault? (earlier : List Int) : List Project → Option ConfigFault
  | [] => none
  | p :: ps =>
    if p.id = Project.miscId then some (.reservedId p.id)
    else if p.id ∈ earlier then some (.duplicateId p.id)
    else idFault? (p.id :: earlier) ps

/-- What is wrong with the names of users. -/
def nameFault? (users : List User) : Option ConfigFault :=
  (users.find? fun u => Text.isBlankText u.name).map fun u => .namelessUser u.id

/-- What is wrong with a configuration. -/
def fault? (c : Config) : Option ConfigFault :=
  c.numberFault?.or <| c.trackerFault?.or <| (idFault? [] c.projects).or <| nameFault? c.users

/-- Nothing, if the configuration is valid. -/
def validate (c : Config) : Except Error Unit :=
  match c.fault? with
  | some fault => .error (.config fault)
  | none => .ok ()

/-- The configuration in the text of a file, if it is a valid one. -/
def ofText (text : String) : Except Error Config :=
  match (Toml.read? text).bind decode with
  | none => .error .document
  | some c => c.validate.map fun _ => c

end TeamDigest.Config
