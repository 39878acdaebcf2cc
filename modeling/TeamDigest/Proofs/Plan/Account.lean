import TeamDigest.Plan
import Mathlib.Data.List.Forall2

/-!
# Accounts of runs

What a run comes to depends on the world only through the answers that it
gives.  `Plan.Ends` says so without a world: the plan puts the questions of an
account, one after the other, and with the answers that stand there it ends
with a value.  Nothing ties the answers to each other, so a statement about all
accounts holds of worlds that answer the same question differently each time.

`Plan.ends_of_run` is the way in: a run that ends well has such an account,
`Plan.replies`.  From then on a plan is taken apart along its structure, by
`ends_bind_iff` at a step and by `ends_all_iff` at a list of plans.
`Plan.AsksOnly` bounds the questions that a plan may put in any run at all, and
`Plan.Meets` bounds them, and the values at the end, as long as the answers are right.
-/

namespace TeamDigest

/-- A question with the answer that was given to it. -/
structure Reply (I : Interface) where
  question : I.Question
  answer : I.Answer question

namespace Plan

variable {I : Interface} {α β σ : Type}

/-- The questions of a run that were answered, with the answers, in order. -/
def replies (world : World I σ) : Plan I α → σ → List (Reply I)
  | done _, _ => []
  | fail _, _ => []
  | ask q next, s =>
    match world q s with
    | (.ok answer, s) => ⟨q, answer⟩ :: (next answer).replies world s
    | (.error _, _) => []

/-- The plan puts the questions of an account in their order and, on the answers
that stand there, ends with a value. -/
inductive Ends : Plan I α → List (Reply I) → α → Prop
  | done (a : α) : Ends (done a) [] a
  | ask {q : I.Question} {next : I.Answer q → Plan I α} (answer : I.Answer q)
      {account : List (Reply I)} {a : α} :
      Ends (next answer) account a → Ends (ask q next) (⟨q, answer⟩ :: account) a

/-- A run that ends with a value does so on the account of its replies. -/
theorem ends_of_run {world : World I σ} {p : Plan I α} {s s' : σ} {a : α}
    (hrun : p.run world s = (.ok a, s')) : p.Ends (p.replies world s) a := by
  induction p generalizing s with
  | done value =>
      simp only [run_done, Prod.mk.injEq, Except.ok.injEq] at hrun
      obtain ⟨rfl, rfl⟩ := hrun
      exact .done value
  | fail error => simp at hrun
  | ask q next ih =>
      unfold run at hrun
      unfold replies
      cases hanswer : world q s with
      | mk outcome later =>
          cases outcome with
          | ok answer =>
              rw [hanswer] at hrun
              exact .ask answer (ih answer hrun)
          | error error => simp [hanswer] at hrun

/-- A question that the world answers leads on. -/
theorem run_ask_of_ok {world : World I σ} {q : I.Question} {next : I.Answer q → Plan I α}
    {s t : σ} {answer : I.Answer q} (h : world q s = (.ok answer, t)) :
    (ask q next).run world s = (next answer).run world t := by
  simp [run, h]

/-- A question that stands alone ends as the world answers it. -/
theorem run_ask_done (world : World I σ) (q : I.Question) (s : σ) :
    (ask q done).run world s = world q s := by
  unfold run
  rcases world q s with ⟨error | answer, t⟩
  · rfl
  · rfl

theorem replies_ask_of_ok {world : World I σ} {q : I.Question} {next : I.Answer q → Plan I α}
    {s t : σ} {answer : I.Answer q} (h : world q s = (.ok answer, t)) :
    (ask q next).replies world s = ⟨q, answer⟩ :: (next answer).replies world t := by
  simp [replies, h]

theorem replies_ask_of_error {world : World I σ} {q : I.Question} {next : I.Answer q → Plan I α}
    {s t : σ} {error : Error} (h : world q s = (.error error, t)) :
    (ask q next).replies world s = [] := by
  simp [replies, h]

theorem run_ask_bind_of_ok {world : World I σ} {q : I.Question} {f : I.Answer q → Plan I β}
    {s t : σ} {answer : I.Answer q} (h : world q s = (.ok answer, t)) :
    (ask q done >>= f).run world s = (f answer).run world t :=
  run_ask_of_ok h

/-- A question that the world fails to answer ends the run. -/
theorem run_ask_bind_of_error {world : World I σ} {q : I.Question} {f : I.Answer q → Plan I β}
    {s t : σ} {error : Error} (h : world q s = (.error error, t)) :
    (ask q done >>= f).run world s = (.error error, t) := by
  simp [run, h]

/-- Every reply of a run was given by the world, in some state of it. -/
theorem world_of_mem_replies {world : World I σ} {p : Plan I α} {s : σ} {reply : Reply I}
    (hreply : reply ∈ p.replies world s) :
    ∃ t, (world reply.question t).1 = .ok reply.answer := by
  induction p generalizing s with
  | done value => simp [replies] at hreply
  | fail error => simp [replies] at hreply
  | ask q next ih =>
      unfold replies at hreply
      cases hanswer : world q s with
      | mk outcome later =>
          cases outcome with
          | ok answer =>
              rw [hanswer] at hreply
              rcases List.mem_cons.1 hreply with rfl | hrest
              · exact ⟨s, by rw [hanswer]⟩
              · exact ih answer hrest
          | error error => simp [hanswer] at hreply

/-- A recording world keeps the questions of the replies, the latest first. -/
theorem recorded_of_run {answer : (q : I.Question) → Except Error (I.Answer q)} {p : Plan I α}
    {before after : List I.Question} {a : α}
    (hrun : p.run (recording answer) before = (.ok a, after)) :
    after = ((p.replies (recording answer) before).map Reply.question).reverse ++ before := by
  induction p generalizing before with
  | done value =>
      simp only [run_done, Prod.mk.injEq, Except.ok.injEq] at hrun
      obtain ⟨-, rfl⟩ := hrun
      rfl
  | fail error => simp at hrun
  | ask q next ih =>
      unfold run at hrun
      unfold replies
      cases hanswer : answer q with
      | ok value =>
          simp only [recording, hanswer] at hrun ⊢
          rw [ih value hrun]
          simp
      | error error => simp [recording, hanswer] at hrun

/-! ## Taking a plan apart -/

@[simp] theorem ends_done_iff {a b : α} {account : List (Reply I)} :
    (done a : Plan I α).Ends account b ↔ account = [] ∧ b = a := by
  constructor
  · rintro ⟨⟩
    exact ⟨rfl, rfl⟩
  · rintro ⟨rfl, rfl⟩
    exact .done b

@[simp] theorem not_ends_fail {error : Error} {account : List (Reply I)} {a : α} :
    ¬ (fail error : Plan I α).Ends account a := by
  rintro ⟨⟩

theorem ends_ask_iff {q : I.Question} {next : I.Answer q → Plan I α}
    {account : List (Reply I)} {a : α} :
    (ask q next).Ends account a ↔
      ∃ answer rest, account = ⟨q, answer⟩ :: rest ∧ (next answer).Ends rest a := by
  constructor
  · intro h
    cases h with
    | ask answer hrest => exact ⟨answer, _, rfl, hrest⟩
  · rintro ⟨answer, rest, rfl, hrest⟩
    exact .ask answer hrest

/-- The account of a question that stands alone. -/
@[simp] theorem ends_ask_done_iff {q : I.Question} {account : List (Reply I)}
    {answer : I.Answer q} :
    (ask q done).Ends account answer ↔ account = [⟨q, answer⟩] := by
  simp only [ends_ask_iff, ends_done_iff]
  constructor
  · rintro ⟨_, _, rfl, rfl, rfl⟩
    rfl
  · rintro rfl
    exact ⟨answer, [], rfl, rfl, rfl⟩

/-- The account of two plans in sequence is that of the first, followed by that
of the second on what the first ends with. -/
theorem ends_bind_iff {p : Plan I α} {f : α → Plan I β} {account : List (Reply I)} {b : β} :
    (p >>= f).Ends account b ↔
      ∃ a first rest, account = first ++ rest ∧ p.Ends first a ∧ (f a).Ends rest b := by
  induction p generalizing account with
  | done value => simp [and_assoc]
  | fail error => simp
  | ask q next ih =>
      simp only [bind_ask, ends_ask_iff, ih]
      constructor
      · rintro ⟨answer, _, rfl, a, first, rest, rfl, hfirst, hrest⟩
        exact ⟨a, ⟨q, answer⟩ :: first, rest, rfl, ⟨answer, first, rfl, hfirst⟩, hrest⟩
      · rintro ⟨a, _, rest, rfl, ⟨answer, first, rfl, hfirst⟩, hrest⟩
        exact ⟨answer, first ++ rest, rfl, a, first, rest, rfl, hfirst, hrest⟩

theorem ends_map_iff {p : Plan I α} {f : α → β} {account : List (Reply I)} {b : β} :
    (f <$> p).Ends account b ↔ ∃ a, p.Ends account a ∧ b = f a := by
  rw [map_eq_pure_bind, ends_bind_iff]
  constructor
  · rintro ⟨a, first, rest, rfl, hfirst, hrest⟩
    obtain ⟨rfl, rfl⟩ := ends_done_iff.1 hrest
    exact ⟨a, by rwa [List.append_nil], rfl⟩
  · rintro ⟨a, ha, rfl⟩
    exact ⟨a, account, [], by rw [List.append_nil], ha, .done _⟩

/-- The account of several plans in a row is made up of one account for each. -/
theorem ends_all_iff {plans : List (Plan I α)} {account : List (Reply I)} {values : List α} :
    (all plans).Ends account values ↔
      ∃ parts : List (List (Reply I) × α),
        List.Forall₂ (fun p part => p.Ends part.1 part.2) plans parts ∧
          account = (parts.map Prod.fst).flatten ∧ values = parts.map Prod.snd := by
  induction plans generalizing account values with
  | nil => simp [all]
  | cons p plans ih =>
      simp only [all, ends_bind_iff, pure_eq, ends_done_iff, ih, List.forall₂_cons_left_iff]
      constructor
      · rintro ⟨a, first, _, rfl, hfirst, _, _, _, rfl, ⟨parts, hparts, rfl, rfl⟩, rfl, rfl⟩
        exact ⟨(first, a) :: parts, ⟨_, parts, hfirst, hparts, rfl⟩, by simp, rfl⟩
      · rintro ⟨_, ⟨⟨first, a⟩, parts, hfirst, hparts, rfl⟩, rfl, rfl⟩
        exact ⟨a, first, _, rfl, hfirst, _, _, [], by simp, ⟨parts, hparts, rfl, rfl⟩, rfl, rfl⟩

/-! ## The questions of a plan -/

/-- Whatever the answers are, the plan puts no question outside `allowed`. -/
def AsksOnly (allowed : I.Question → Prop) : Plan I α → Prop
  | done _ => True
  | fail _ => True
  | ask q next => allowed q ∧ ∀ answer, (next answer).AsksOnly allowed

namespace AsksOnly

variable {allowed wider : I.Question → Prop}

theorem mono {p : Plan I α} (hp : p.AsksOnly allowed) (h : ∀ q, allowed q → wider q) :
    p.AsksOnly wider := by
  induction p with
  | done value => trivial
  | fail error => trivial
  | ask q next ih => exact ⟨h q hp.1, fun answer => ih answer (hp.2 answer)⟩

theorem bind {p : Plan I α} {f : α → Plan I β} (hp : p.AsksOnly allowed)
    (hf : ∀ a, (f a).AsksOnly allowed) : (p >>= f).AsksOnly allowed := by
  induction p with
  | done value => exact hf value
  | fail error => trivial
  | ask q next ih => exact ⟨hp.1, fun answer => ih answer (hp.2 answer)⟩

theorem map {p : Plan I α} {f : α → β} (hp : p.AsksOnly allowed) :
    (f <$> p).AsksOnly allowed := by
  rw [map_eq_pure_bind]
  exact hp.bind fun _ => trivial

theorem all {plans : List (Plan I α)} (h : ∀ p ∈ plans, p.AsksOnly allowed) :
    (Plan.all plans).AsksOnly allowed := by
  induction plans with
  | nil => trivial
  | cons p plans ih =>
      obtain ⟨hp, hplans⟩ := List.forall_mem_cons.1 h
      exact hp.bind fun _ => (ih hplans).bind fun _ => trivial

/-- An account of the plan holds no other questions. -/
theorem of_mem {p : Plan I α} {account : List (Reply I)} {a : α} (hp : p.AsksOnly allowed)
    (hends : p.Ends account a) {reply : Reply I} (hreply : reply ∈ account) :
    allowed reply.question := by
  induction hends with
  | done => simp at hreply
  | ask answer _ ih =>
      rcases List.mem_cons.1 hreply with rfl | hrest
      · exact hp.1
      · exact ih (hp.2 answer) hrest

/-- Of questions of a kind that the plan never puts, no account of it tells. -/
theorem filter_eq_nil {kind : I.Question → Bool} {p : Plan I α} {account : List (Reply I)} {a : α}
    (hp : p.AsksOnly allowed) (hends : p.Ends account a) (h : ∀ q, allowed q → kind q = false) :
    account.filter (fun reply => kind reply.question) = [] := by
  refine List.filter_eq_nil_iff.2 fun reply hreply => ?_
  rw [h _ (hp.of_mem hends hreply)]
  exact Bool.false_ne_true

end AsksOnly

/-- As long as the answers are of the kind `gives`, the plan puts only questions of
`asks` and ends with no value outside `ends`. -/
def Meets (gives : Reply I → Prop) (asks : I.Question → Prop) (ends : α → Prop) :
    Plan I α → Prop
  | done a => ends a
  | fail _ => True
  | ask q next => asks q ∧ ∀ answer, gives ⟨q, answer⟩ → (next answer).Meets gives asks ends

theorem Meets.bind {gives : Reply I → Prop} {asks : I.Question → Prop} {middle : α → Prop}
    {ends : β → Prop} {p : Plan I α} {f : α → Plan I β} (hp : p.Meets gives asks middle)
    (hf : ∀ a, middle a → (f a).Meets gives asks ends) : (p >>= f).Meets gives asks ends := by
  induction p with
  | done value => exact hf value hp
  | fail error => trivial
  | ask q next ih => exact ⟨hp.1, fun answer hanswer => ih answer (hp.2 answer hanswer)⟩

end Plan

end TeamDigest
