import TeamDigest.Http.Exchange
import TeamDigest.Store
import TeamDigest.Time.Instant

/-!
# The host of the program

What the program may ask of the machine on which it runs: its variables, its
clock, its files, the stores that it keeps in directories, exchanges with web
services, and lines to the user.  What a machine refuses is an answer too, so
the program decides what becomes of it.
-/

namespace TeamDigest.Host

/-- What the program may ask. -/
inductive Question where
  /-- The value of a variable of the environment. -/
  | env (name : String)
  /-- The home directory of the user, by the user's account. -/
  | account
  /-- The time. -/
  | now
  /-- Whether a path leads to something. -/
  | present (path : String)
  /-- The content of a file. -/
  | read (path : String)
  /-- Writes a file, in place of an old one of that path. -/
  | write (path : String) (content : ByteArray)
  /-- Makes a directory, with the directories that lead to it. -/
  | makeDirectory (path : String)
  /-- Opens the store in a directory, or a new one where there is none. -/
  | openStore (path : String)
  /-- Operates on the store in a directory. -/
  | store (path : String) (operation : Store.Operation)
  /-- Exchanges a request for a response. -/
  | exchange (request : Http.Request)
  /-- Prints a text to the standard output. -/
  | print (text : String)
  /-- Prints a text to the standard error. -/
  | note (text : String)

/-- The types of the answers. -/
def Question.Answer : Question → Type
  | env _ => Option String
  | account => Option String
  | now => Time.Instant
  | present _ => Bool
  | read _ => Except FileFault ByteArray
  | write _ _ => Except FileFault Unit
  | makeDirectory _ => Except FileFault Unit
  | openStore _ => Except FileFault Unit
  | store _ operation => Except FileFault operation.Answer
  | exchange _ => Except Error Http.Response
  | print _ => Unit
  | note _ => Unit

/-- The machine on which the program runs. -/
def machine : Interface := ⟨Question, Question.Answer⟩

end Host

/-- A computation that asks its host. -/
abbrev Job (α : Type) : Type := Plan Host.machine α

namespace Job

open Host

/-- The result of an operation on files; a fault of it becomes an error. -/
def settled {α : Type} (error : FileFault → Error) : Except FileFault α → Job α
  | .ok a => .done a
  | .error fault => .fail (error fault)

/-- The value of a variable. -/
def env (name : String) : Job (Option String) := .ask (Question.env name) .done

/-- The home directory of the user, by the user's account. -/
def account : Job (Option String) := .ask Question.account .done

/-- The time. -/
def now : Job Time.Instant := .ask Question.now .done

/-- Whether a path leads to something. -/
def present (path : String) : Job Bool := .ask (Question.present path) .done

/-- The content of a file. -/
def read (path : String) : Job (Except FileFault ByteArray) := .ask (Question.read path) .done

/-- Writes a file. -/
def write (path : String) (content : ByteArray) : Job (Except FileFault Unit) :=
  .ask (Question.write path content) .done

/-- Makes a directory, with the directories that lead to it. -/
def makeDirectory (path : String) : Job (Except FileFault Unit) :=
  .ask (Question.makeDirectory path) .done

/-- Opens the store in a directory, or a new one where there is none. -/
def openStore (path : String) : Job (Except FileFault Unit) :=
  .ask (Question.openStore path) .done

/-- Operates on the store in a directory. -/
def store (path : String) (operation : Store.Operation) :
    Job (Except FileFault operation.Answer) :=
  .ask (Question.store path operation) .done

/-- Prints a text to the standard output. -/
def print (text : String) : Job Unit := .ask (Question.print text) .done

/-- Prints a text to the standard error. -/
def note (text : String) : Job Unit := .ask (Question.note text) .done

/-- Exchanges a request for a response. -/
def exchange (request : Http.Request) : Job Http.Response :=
  .ask (Question.exchange request) fun
    | .ok response => .done response
    | .error e => .fail e

/-- A client of services, on the network of the host. -/
def online {α : Type} (client : Http.Client α) : Job α := client.serve exchange

end Job

end TeamDigest
