import TeamDigest.Proofs.Plan.Account
import Mathlib.Data.List.Infix

/-!
# Runs in which some questions fail

Two worlds may differ in nothing but an `Outage`: some questions fail in one of
them, and all others are answered alike.  A plan has no means to go on without an
answer, so a run with the outage ends well exactly if the run without it does and
puts none of the questions that are down (`run_of_outage_iff`).  Up to the failure
the two runs put the same questions (`asked_prefix_of_outage`).

`Plan.Safe` bounds what a plan does as long as the answers are of some kind:
which questions it puts, and which errors it fails with of its own accord.  Unlike
`Plan.AsksOnly` it may be told that the answers are right, and a plan that never
fails by itself comes to an end with them (`Safe.exists_ends`).
-/

namespace TeamDigest

/-- The worlds differ only in that the questions of `down` fail in `other`. -/
structure Outage {I : Interface} {σ : Type} (down : I.Question → Prop)
    (world other : World I σ) : Prop where
  fails : ∀ q s, down q → ∃ error, (other q s).1 = .error error
  same : ∀ q s, ¬ down q → other q s = world q s

namespace Plan

variable {I : Interface} {α β σ : Type} {p : Plan I α} {s t : σ} {a : α}

/-- The questions of a run in their order, the one that fails included. -/
def asked (world : World I σ) : Plan I α → σ → List I.Question
  | done _, _ => []
  | fail _, _ => []
  | ask q next, s =>
    q :: match world q s with
      | (.ok answer, s) => (next answer).asked world s
      | (.error _, _) => []

theorem asked_ask_of_ok {world : World I σ} {q : I.Question} {next : I.Answer q → Plan I α}
    {answer : I.Answer q} (h : world q s = (.ok answer, t)) :
    (ask q next).asked world s = q :: (next answer).asked world t := by
  simp [asked, h]

theorem asked_ask_of_error {world : World I σ} {q : I.Question} {next : I.Answer q → Plan I α}
    {error : Error} (h : world q s = (.error error, t)) : (ask q next).asked world s = [q] := by
  simp [asked, h]

@[simp] theorem asked_ofExcept (world : World I σ) (found : Except Error α) (s : σ) :
    (ofExcept found : Plan I α).asked world s = [] := by
  cases found with
  | ok a => rfl
  | error error => rfl

/-- A plan that ends with a value is followed by the questions of what comes then. -/
theorem asked_bind_of_ok {world : World I σ} {f : α → Plan I β}
    (hrun : p.run world s = (.ok a, t)) :
    (p >>= f).asked world s = p.asked world s ++ (f a).asked world t := by
  induction p generalizing s with
  | done value =>
      obtain ⟨hvalue, rfl⟩ := Prod.mk.inj hrun
      rw [← Except.ok.inj hvalue]
      rfl
  | fail error => simp at hrun
  | ask q next ih =>
      unfold run at hrun
      rw [bind_ask]
      cases hanswer : world q s with
      | mk outcome later =>
          rw [hanswer] at hrun
          cases outcome with
          | ok answer =>
              rw [asked_ask_of_ok hanswer, asked_ask_of_ok hanswer, ih answer hrun]
              rfl
          | error error => simp at hrun

/-- What is made of the value adds no question. -/
@[simp] theorem asked_map (world : World I σ) (g : α → β) (p : Plan I α) (s : σ) :
    (g <$> p).asked world s = p.asked world s := by
  rw [map_eq_pure_bind]
  induction p generalizing s with
  | done value => rfl
  | fail error => rfl
  | ask q next ih =>
      rw [bind_ask]
      cases hanswer : world q s with
      | mk outcome later =>
          cases outcome with
          | ok answer => rw [asked_ask_of_ok hanswer, asked_ask_of_ok hanswer, ih]
          | error error => rw [asked_ask_of_error hanswer, asked_ask_of_error hanswer]

theorem mem_asked_of_mem_replies {world : World I σ} {reply : Reply I}
    (hreply : reply ∈ p.replies world s) : reply.question ∈ p.asked world s := by
  induction p generalizing s with
  | done value => simp [replies] at hreply
  | fail error => simp [replies] at hreply
  | ask q next ih =>
      unfold replies at hreply
      unfold asked
      cases hanswer : world q s with
      | mk outcome later =>
          rw [hanswer] at hreply
          cases outcome with
          | ok answer =>
              rcases List.mem_cons.1 hreply with rfl | hrest
              · exact List.mem_cons_self
              · exact List.mem_cons_of_mem _ (ih answer hrest)
          | error error => simp at hreply

/-! ## The run with the outage and the run without it -/

section Outage

variable {down : I.Question → Prop} {world other : World I σ}

/-- A run with the outage ends with a value if and only if the run without it ends
with that value and no question that is down comes up in it. -/
theorem run_of_outage_iff (houtage : Outage down world other) :
    p.run other s = (.ok a, t) ↔
      p.run world s = (.ok a, t) ∧ ∀ q ∈ p.asked world s, ¬ down q := by
  induction p generalizing s with
  | done value => simp [asked]
  | fail error => simp
  | ask q next ih =>
      by_cases hdown : down q
      · obtain ⟨error, herror⟩ := houtage.fails q s hdown
        have hfailed : other q s = (.error error, (other q s).2) := Prod.ext herror rfl
        constructor
        · intro hrun
          rw [run, hfailed] at hrun
          simp at hrun
        · rintro ⟨-, hup⟩
          exact absurd hdown (hup q (by simp [asked]))
      · have hsame : other q s = world q s := houtage.same q s hdown
        unfold run asked
        rw [hsame]
        cases world q s with
        | mk outcome later =>
            cases outcome with
            | ok answer => simp [ih, hdown]
            | error error => simp

/-- The questions of a run with the outage are the first ones of the run without. -/
theorem asked_prefix_of_outage (houtage : Outage down world other) :
    p.asked other s <+: p.asked world s := by
  induction p generalizing s with
  | done value => exact List.prefix_rfl
  | fail error => exact List.prefix_rfl
  | ask q next ih =>
      unfold asked
      rw [List.prefix_cons_inj]
      by_cases hdown : down q
      · obtain ⟨error, herror⟩ := houtage.fails q s hdown
        have hfailed : other q s = (.error error, (other q s).2) := Prod.ext herror rfl
        rw [hfailed]
        exact List.nil_prefix
      · rw [houtage.same q s hdown]
        cases world q s with
        | mk outcome later =>
            cases outcome with
            | ok answer => exact ih answer
            | error error => exact List.prefix_rfl

end Outage

/-! ## Plans among answers of some kind -/

/-- As long as the answers are of the kind `gives`, the plan puts no question
outside `asks` and fails by itself with no error outside `fails`. -/
def Safe (gives : Reply I → Prop) (asks : I.Question → Prop) (fails : Error → Prop) :
    Plan I α → Prop
  | done _ => True
  | fail error => fails error
  | ask q next => asks q ∧ ∀ answer, gives ⟨q, answer⟩ → (next answer).Safe gives asks fails

/-- An account with answers of the kind `gives`. -/
def Given (gives : Reply I → Prop) (account : List (Reply I)) : Prop :=
  ∀ reply ∈ account, gives reply

theorem Given.of_subset {gives : Reply I → Prop} {account part : List (Reply I)}
    (h : Given gives account) (hsub : part ⊆ account) : Given gives part :=
  fun reply hreply => h reply (hsub hreply)

namespace Safe

variable {gives : Reply I → Prop} {asks wider : I.Question → Prop} {fails : Error → Prop}
  {f : α → Plan I β} {account : List (Reply I)}

theorem mono (hp : p.Safe gives asks fails) (h : ∀ q, asks q → wider q) :
    p.Safe gives wider fails := by
  induction p with
  | done value => trivial
  | fail error => exact hp
  | ask q next ih => exact ⟨h q hp.1, fun answer hanswer => ih answer (hp.2 answer hanswer)⟩

/-- What comes second need only be safe on the values that the first plan ends
with. -/
theorem bind (hp : p.Safe gives asks fails)
    (hf : ∀ a account, p.Ends account a → Given gives account → (f a).Safe gives asks fails) :
    (p >>= f).Safe gives asks fails := by
  induction p with
  | done value => exact hf value [] (.done value) (by simp [Given])
  | fail error => exact hp
  | ask q next ih =>
      refine ⟨hp.1, fun answer hanswer => ih answer (hp.2 answer hanswer) ?_⟩
      intro a account hends hgiven
      exact hf a _ (.ask answer hends) (List.forall_mem_cons.2 ⟨hanswer, hgiven⟩)

theorem map {g : α → β} (hp : p.Safe gives asks fails) : (g <$> p).Safe gives asks fails := by
  rw [map_eq_pure_bind]
  exact hp.bind fun _ _ _ _ => trivial

theorem all {plans : List (Plan I α)} (h : ∀ p ∈ plans, p.Safe gives asks fails) :
    (Plan.all plans).Safe gives asks fails := by
  induction plans with
  | nil => trivial
  | cons p plans ih =>
      obtain ⟨hp, hplans⟩ := List.forall_mem_cons.1 h
      exact hp.bind fun _ _ _ _ => (ih hplans).bind fun _ _ _ _ => trivial

/-- The first of two plans in sequence is safe if both together are. -/
theorem of_bind (h : (p >>= f).Safe gives asks fails) : p.Safe gives asks fails := by
  induction p with
  | done value => trivial
  | fail error => exact h
  | ask q next ih => exact ⟨h.1, fun answer hanswer => ih answer (h.2 answer hanswer)⟩

/-- The second of two plans in sequence is safe on what the first ends with. -/
theorem after_bind (h : (p >>= f).Safe gives asks fails) (hends : p.Ends account a)
    (hgiven : Given gives account) : (f a).Safe gives asks fails := by
  induction hends with
  | done a => exact h
  | ask answer _ ih =>
      obtain ⟨hanswer, hrest⟩ := List.forall_mem_cons.1 hgiven
      exact ih (h.2 answer hanswer) hrest

/-- A plan that never fails by itself comes to an end, if there is an answer to
each question. -/
theorem exists_ends (hp : p.Safe gives asks fun _ => False)
    (hgives : ∀ q, ∃ answer, gives ⟨q, answer⟩) :
    ∃ account a, p.Ends account a ∧ Given gives account := by
  induction p with
  | done value => exact ⟨[], value, .done value, by simp [Given]⟩
  | fail error => exact hp.elim
  | ask q next ih =>
      obtain ⟨answer, hanswer⟩ := hgives q
      obtain ⟨account, a, hends, hgiven⟩ := ih answer (hp.2 answer hanswer)
      exact ⟨_, a, .ask answer hends, List.forall_mem_cons.2 ⟨hanswer, hgiven⟩⟩

/-- Each of several plans in a row is safe, as those before it come to an end. -/
theorem of_all {plans : List (Plan I α)} (h : (Plan.all plans).Safe gives asks fun _ => False)
    (hgives : ∀ q, ∃ answer, gives ⟨q, answer⟩) :
    ∀ p ∈ plans, p.Safe gives asks fun _ => False := by
  induction plans with
  | nil => simp
  | cons p plans ih =>
      change (p >>= fun a => Plan.all plans >>= fun as => pure (a :: as)).Safe _ _ _ at h
      have hp : p.Safe gives asks fun _ => False := h.of_bind
      obtain ⟨account, a, hends, hgiven⟩ := hp.exists_ends hgives
      have hrest := h.after_bind hends hgiven
      exact List.forall_mem_cons.2 ⟨hp, ih hrest.of_bind⟩

/-- In a world that answers all its questions, a plan fails only by itself. -/
theorem run {world : World I σ} (hp : p.Safe gives asks fails)
    (hworld : ∀ q s, ∃ answer, (world q s).1 = .ok answer ∧ gives ⟨q, answer⟩) :
    (∃ a t, p.run world s = (.ok a, t)) ∨
      ∃ error t, p.run world s = (.error error, t) ∧ fails error := by
  induction p generalizing s with
  | done value => exact .inl ⟨value, s, rfl⟩
  | fail error => exact .inr ⟨error, s, rfl, hp⟩
  | ask q next ih =>
      obtain ⟨answer, hanswer, hgives⟩ := hworld q s
      have hoked : world q s = (.ok answer, (world q s).2) := Prod.ext hanswer rfl
      rw [Plan.run, hoked]
      exact ih answer (hp.2 answer hgives)

end Safe

/-- A plan that ends on an account is safe, with no question outside the account,
as long as the answers that stand there are the only ones to be given. -/
theorem Ends.safe {account : List (Reply I)} {gives : Reply I → Prop} {fails : Error → Prop}
    (hends : p.Ends account a)
    (hunique : ∀ reply ∈ account, ∀ answer, gives ⟨reply.question, answer⟩ →
      answer = reply.answer) :
    p.Safe gives (fun q => ∃ reply ∈ account, reply.question = q) fails := by
  induction hends with
  | done a => trivial
  | ask answer _ ih =>
      obtain ⟨hhead, hrest⟩ := List.forall_mem_cons.1 hunique
      refine ⟨⟨_, List.mem_cons_self, rfl⟩, fun other hother => ?_⟩
      rw [hhead other hother]
      refine (ih hrest).mono ?_
      rintro q ⟨reply, hreply, rfl⟩
      exact ⟨reply, List.mem_cons_of_mem _ hreply, rfl⟩

end Plan

end TeamDigest
