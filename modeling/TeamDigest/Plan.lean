import TeamDigest.Error

/-!
# Plans

A plan is a computation that asks questions of the world and goes on with the
answers, until it is done or fails.  It says what is asked and in which order,
and leaves open who answers: the same plan runs on live services, on a record
of their answers, or on a world in which some of them are down.

`Plan.run` carries out a plan in a world, which may change from question to
question; a question that the world fails to answer ends the run.
`Plan.serve` answers the questions of one plan by plans over other questions.
-/

namespace TeamDigest

/-- The questions that may be asked, with the type of their answers. -/
structure Interface where
  Question : Type
  Answer : Question → Type

/-- A computation that asks questions and goes on with the answers. -/
inductive Plan (I : Interface) (α : Type) : Type where
  | done (value : α)
  | fail (error : Error)
  | ask (question : I.Question) (next : I.Answer question → Plan I α)

/-- What answers questions, with a state that each question may change. -/
abbrev World (I : Interface) (σ : Type) : Type :=
  (question : I.Question) → σ → Except Error (I.Answer question) × σ

namespace Plan

variable {I J : Interface} {α β σ : Type}

/-- Goes on with the result of a plan. -/
def bind : Plan I α → (α → Plan I β) → Plan I β
  | done a, f => f a
  | fail e, _ => fail e
  | ask q next, f => ask q fun answer => (next answer).bind f

instance : Monad (Plan I) where
  pure := done
  bind := bind

@[simp] theorem pure_eq (a : α) : (pure a : Plan I α) = done a := rfl

@[simp] theorem bind_done (a : α) (f : α → Plan I β) : (done a >>= f) = f a := rfl

@[simp] theorem bind_fail (e : Error) (f : α → Plan I β) : (fail e >>= f) = fail e := rfl

@[simp] theorem bind_ask (q : I.Question) (next : I.Answer q → Plan I α) (f : α → Plan I β) :
    (ask q next >>= f) = ask q fun answer => next answer >>= f := rfl

instance : LawfulMonad (Plan I) := LawfulMonad.mk' (Plan I)
  (fun p => by
    show p.bind _ = p
    induction p with
    | done => rfl
    | fail => rfl
    | ask q next ih => exact congrArg (ask q) (funext ih))
  (fun _ _ => rfl)
  (fun p f g => by
    show (p.bind f).bind g = p.bind fun a => (f a).bind g
    induction p with
    | done => rfl
    | fail => rfl
    | ask q next ih => exact congrArg (ask q) (funext ih))

/-- Goes on with a value, or fails where there is none. -/
def ofOption (error : Error) : Option α → Plan I α
  | some a => done a
  | none => fail error

/-- Goes on with a value or fails with an error. -/
def ofExcept : Except Error α → Plan I α
  | .ok a => done a
  | .error e => fail e

/-- The result of a plan, be it a value or an error. -/
def attempt : Plan I α → Plan I (Except Error α)
  | done a => done (.ok a)
  | fail e => done (.error e)
  | ask q next => ask q fun answer => (next answer).attempt

@[simp] theorem attempt_done (a : α) : (done a : Plan I α).attempt = done (.ok a) := rfl

@[simp] theorem attempt_fail (e : Error) : (fail e : Plan I α).attempt = done (.error e) := rfl

@[simp] theorem attempt_ask (q : I.Question) (next : I.Answer q → Plan I α) :
    (ask q next).attempt = ask q fun answer => (next answer).attempt := rfl

/-- A plan in the course of something, which an error of it then mentions. -/
def during (course : String) (p : Plan I α) : Plan I α := do
  match ← p.attempt with
  | .ok a => done a
  | .error e => fail (.during course e)

/-- The results of several plans, one after the other. -/
def all : List (Plan I α) → Plan I (List α)
  | [] => done []
  | p :: ps => do
    let a ← p
    let as ← all ps
    pure (a :: as)

/-! ## Running a plan -/

/-- Carries out a plan in a world. -/
def run (world : World I σ) : Plan I α → σ → Except Error α × σ
  | done a, s => (.ok a, s)
  | fail e, s => (.error e, s)
  | ask q next, s =>
    match world q s with
    | (.ok answer, s) => (next answer).run world s
    | (.error e, s) => (.error e, s)

@[simp] theorem run_done (world : World I σ) (a : α) (s : σ) :
    (done a : Plan I α).run world s = (.ok a, s) := rfl

@[simp] theorem run_fail (world : World I σ) (e : Error) (s : σ) :
    (fail e : Plan I α).run world s = (.error e, s) := rfl

/-- A world whose answers depend on the questions alone, and which keeps an
account of the questions, the latest first. -/
def recording (answer : (q : I.Question) → Except Error (I.Answer q)) :
    World I (List I.Question) :=
  fun q asked => (answer q, q :: asked)

/-- A run of two plans in sequence is the run of the second on what the first
leaves behind. -/
theorem run_bind (world : World I σ) (p : Plan I α) (f : α → Plan I β) (s : σ) :
    (p >>= f).run world s =
      match p.run world s with
      | (.ok a, s) => (f a).run world s
      | (.error e, s) => (.error e, s) := by
  induction p generalizing s with
  | done => rfl
  | fail => rfl
  | ask q next ih =>
    simp only [bind_ask, run]
    split
    · exact ih _ _
    · rfl

/-- Answers the questions of a plan by plans. -/
def serve (answer : (q : I.Question) → Plan J (I.Answer q)) : Plan I α → Plan J α
  | done a => done a
  | fail e => fail e
  | ask q next => answer q >>= fun a => (next a).serve answer

/-- To serve a plan and run the result is to run it in the served world. -/
theorem run_serve (world : World J σ) (answer : (q : I.Question) → Plan J (I.Answer q))
    (p : Plan I α) (s : σ) :
    (p.serve answer).run world s = p.run (fun q => (answer q).run world) s := by
  induction p generalizing s with
  | done => rfl
  | fail => rfl
  | ask q next ih =>
    simp only [serve, run_bind, run]
    split
    · next h => rw [h]; exact ih _ _
    · next h => rw [h]

end Plan

end TeamDigest
