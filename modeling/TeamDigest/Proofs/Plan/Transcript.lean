import TeamDigest.Proofs.Plan.Account

/-!
# Transcripts of runs that may fail

The replies of a run are also there when the run fails in the end.  They are taken apart
along a plan as its value is: at a step (`replies_bind`), and where an error is caught or
passed on (`replies_attempt`, `replies_during`).

Two properties of plans bound them.  `Plan.Meets` says which questions are put as long as
the answers are right, and a world whose states keep to an invariant may give such answers
(`Meets.of_invariant`).  `Plan.Heeds` says that the plan gives up at once on an answer that
is bad: so where it ends with a value, it has been given none (`Heeds.not_bad`).
-/

namespace TeamDigest

variable {I J : Interface} {α β σ : Type}

/-- The world has an answer to every question. -/
def Total (world : World I σ) : Prop := ∀ q s, ∃ answer t, world q s = (.ok answer, t)

namespace Plan

variable {world : World I σ} {p : Plan I α} {f : α → Plan I β} {s t : σ} {a : α}
  {asks : I.Question → Prop} {bad : Reply I → Prop}

/-! ## Errors that are caught -/

theorem replies_bind (world : World I σ) (p : Plan I α) (f : α → Plan I β) (s : σ) :
    (p >>= f).replies world s = p.replies world s ++
      match p.run world s with
      | (.ok a, t) => (f a).replies world t
      | (.error _, _) => [] := by
  induction p generalizing s with
  | done value => rfl
  | fail error => rfl
  | ask q next ih =>
      simp only [bind_ask, replies, run]
      cases world q s with
      | mk outcome later =>
          cases outcome with
          | ok answer => simp [ih]
          | error error => rfl

@[simp] theorem replies_map (world : World I σ) (g : α → β) (p : Plan I α) (s : σ) :
    (g <$> p).replies world s = p.replies world s := by
  rw [map_eq_pure_bind, replies_bind]
  rcases p.run world s with ⟨_ | a, t⟩
  · exact List.append_nil _
  · exact List.append_nil _

@[simp] theorem run_ofExcept (world : World I σ) (found : Except Error α) (s : σ) :
    (ofExcept found : Plan I α).run world s = (found, s) := by
  cases found with
  | ok a => rfl
  | error error => rfl

theorem run_bind_of_ok (hrun : p.run world s = (.ok a, t)) :
    (p >>= f).run world s = (f a).run world t := by
  rw [run_bind, hrun]

theorem run_map (world : World I σ) (g : α → β) (p : Plan I α) (s : σ) :
    (g <$> p).run world s = ((p.run world s).1.map g, (p.run world s).2) := by
  rw [map_eq_pure_bind, run_bind]
  rcases p.run world s with ⟨_ | a, t⟩
  · rfl
  · rfl

theorem run_map_of_ok {g : α → β} (hrun : p.run world s = (.ok a, t)) :
    (g <$> p).run world s = (.ok (g a), t) := by
  rw [run_map, hrun]
  rfl

theorem run_bind_of_error {error : Error} (hrun : p.run world s = (.error error, t)) :
    (p >>= f).run world s = (.error error, t) := by
  rw [run_bind, hrun]

theorem run_map_of_error {g : α → β} {error : Error} (hrun : (p.run world s).1 = .error error) :
    ((g <$> p).run world s).1 = .error error := by
  rw [run_map, hrun]
  rfl

/-- Of two plans in sequence, the first one fails, or the second one does on what the first
ends with. -/
theorem run_bind_eq_error_iff {error : Error} : (p >>= f).run world s = (.error error, t) ↔
    p.run world s = (.error error, t) ∨
      ∃ a u, p.run world s = (.ok a, u) ∧ (f a).run world u = (.error error, t) := by
  rw [run_bind]
  rcases p.run world s with ⟨_ | a, u⟩
  · simp
  · simp

theorem run_map_eq_error_iff {g : α → β} {error : Error} :
    (g <$> p).run world s = (.error error, t) ↔ p.run world s = (.error error, t) := by
  simp [map_eq_pure_bind, run_bind_eq_error_iff]

/-- Where every question is answered, an attempt always ends with a value. -/
theorem run_attempt (hworld : Total world) (p : Plan I α) (s : σ) :
    p.attempt.run world s = (.ok (p.run world s).1, (p.run world s).2) := by
  induction p generalizing s with
  | done value => rfl
  | fail error => rfl
  | ask q next ih =>
      obtain ⟨answer, later, hanswer⟩ := hworld q s
      simp [run, hanswer, ih]

@[simp] theorem replies_attempt (world : World I σ) (p : Plan I α) (s : σ) :
    p.attempt.replies world s = p.replies world s := by
  induction p generalizing s with
  | done value => rfl
  | fail error => rfl
  | ask q next ih =>
      simp only [attempt_ask, replies]
      cases world q s with
      | mk outcome later =>
          cases outcome with
          | ok answer => simp [ih]
          | error error => rfl

theorem run_during_of_error (hworld : Total world) (course : String) {error : Error}
    (hrun : p.run world s = (.error error, t)) :
    (p.during course).run world s = (.error (.during course error), t) := by
  rw [during, run_bind, run_attempt hworld, hrun]
  rfl

@[simp] theorem replies_during (world : World I σ) (course : String) (p : Plan I α) (s : σ) :
    (p.during course).replies world s = p.replies world s := by
  rw [during, replies_bind, replies_attempt]
  cases p.attempt.run world s with
  | mk outcome later =>
      rcases outcome with error | error | a
      · exact List.append_nil _
      · exact List.append_nil _
      · exact List.append_nil _

/-- In an attempt, a step that ends with a value leads on to the next one. -/
theorem attempt_step_of_ok {γ : Type} (hworld : Total world) (g : Except Error β → Plan I γ)
    (hrun : p.run world s = (.ok a, t)) :
    ((p >>= f).attempt >>= g).run world s = ((f a).attempt >>= g).run world t ∧
      ((p >>= f).attempt >>= g).replies world s =
        p.replies world s ++ ((f a).attempt >>= g).replies world t := by
  simp only [run_bind, replies_bind, run_attempt hworld, replies_attempt, hrun,
    List.append_assoc, and_self]

/-- In an attempt, a step that fails leads to the end. -/
theorem attempt_step_of_error {γ : Type} (hworld : Total world) (g : Except Error β → Plan I γ)
    {error : Error} (hrun : p.run world s = (.error error, t)) :
    ((p >>= f).attempt >>= g).run world s = (g (.error error)).run world t ∧
      ((p >>= f).attempt >>= g).replies world s =
        p.replies world s ++ (g (.error error)).replies world t := by
  simp only [run_bind, replies_bind, run_attempt hworld, replies_attempt, hrun,
    List.append_nil, and_self]

theorem attempt_map (g : α → β) (p : Plan I α) :
    (g <$> p).attempt = (fun result => result.map g) <$> p.attempt := by
  simp only [map_eq_pure_bind]
  induction p with
  | done value => rfl
  | fail error => rfl
  | ask q next ih => exact congrArg (ask q) (funext ih)

theorem during_map (g : α → β) (p : Plan I α) (course : String) :
    (g <$> p).during course = g <$> p.during course := by
  rw [during, during, attempt_map, bind_map_left, map_bind]
  refine bind_congr fun result => ?_
  cases result with
  | ok a => rfl
  | error error => rfl

/-- To serve a plan and to change its value go in either order. -/
theorem serve_map (answer : (q : J.Question) → Plan I (J.Answer q)) (g : α → β)
    (p : Plan J α) : (g <$> p).serve answer = g <$> p.serve answer := by
  simp only [map_eq_pure_bind]
  induction p with
  | done value => rfl
  | fail error => rfl
  | ask q next ih =>
      simp only [bind_ask, serve, bind_assoc]
      exact bind_congr ih

/-- To serve two plans in sequence is to serve the one and then the other. -/
theorem serve_bind (answer : (q : J.Question) → Plan I (J.Answer q)) (p : Plan J α)
    (f : α → Plan J β) :
    (p >>= f).serve answer = p.serve answer >>= fun a => (f a).serve answer := by
  induction p with
  | done value => rfl
  | fail error => rfl
  | ask q next ih =>
      simp only [bind_ask, serve, bind_assoc]
      exact bind_congr ih

/-! ## Questions that are not answered -/

/-- In the run, a question comes up that the world does not answer. -/
def Falters (world : World I σ) : Plan I α → σ → Prop
  | done _, _ => False
  | fail _, _ => False
  | ask q next, s =>
    match world q s with
    | (.ok answer, s) => (next answer).Falters world s
    | (.error _, _) => True

theorem Falters.run_eq_error (h : p.Falters world s) :
    ∃ error t, p.run world s = (.error error, t) := by
  induction p generalizing s with
  | done value => exact h.elim
  | fail error => exact h.elim
  | ask q next ih =>
      unfold Falters at h
      unfold run
      cases hanswer : world q s with
      | mk outcome later =>
          rw [hanswer] at h
          cases outcome with
          | ok answer => exact ih answer h
          | error error => exact ⟨error, later, rfl⟩

/-! ## Plans among answers of some kind -/

theorem AsksOnly.of_mem_replies (hp : p.AsksOnly asks) {reply : Reply I}
    (hreply : reply ∈ p.replies world s) : asks reply.question := by
  induction p generalizing s with
  | done value => simp [replies] at hreply
  | fail error => simp [replies] at hreply
  | ask q next ih =>
      unfold replies at hreply
      cases hanswer : world q s with
      | mk outcome later =>
          cases outcome with
          | ok answer =>
              rw [hanswer] at hreply
              rcases List.mem_cons.1 hreply with rfl | hrest
              · exact hp.1
              · exact ih answer (hp.2 answer) hrest
          | error error => simp [hanswer] at hreply

theorem AsksOnly.attempt (hp : p.AsksOnly asks) : p.attempt.AsksOnly asks := by
  induction p with
  | done value => trivial
  | fail error => trivial
  | ask q next ih => exact ⟨hp.1, fun answer => ih answer (hp.2 answer)⟩

theorem AsksOnly.during (hp : p.AsksOnly asks) (course : String) :
    (p.during course).AsksOnly asks := by
  refine hp.attempt.bind fun result => ?_
  cases result with
  | ok a => trivial
  | error error => trivial

theorem AsksOnly.ofOption (error : Error) (found : Option α) :
    (Plan.ofOption error found : Plan I α).AsksOnly asks := by
  cases found with
  | none => trivial
  | some a => trivial

theorem AsksOnly.ofExcept (found : Except Error α) :
    (Plan.ofExcept found : Plan I α).AsksOnly asks := by
  cases found with
  | error error => trivial
  | ok a => trivial

/-- A plan that is served asks what its answers ask. -/
theorem AsksOnly.serve {answer : (q : J.Question) → Plan I (J.Answer q)}
    (hanswer : ∀ q, (answer q).AsksOnly asks) (p : Plan J α) : (p.serve answer).AsksOnly asks := by
  induction p with
  | done value => trivial
  | fail error => trivial
  | ask q next ih => exact (hanswer q).bind ih

section Meets

variable {gives : Reply I → Prop} {ends : α → Prop}

theorem Meets.of_asksOnly (hp : p.AsksOnly asks) : p.Meets gives asks fun _ => True := by
  induction p with
  | done value => trivial
  | fail error => trivial
  | ask q next ih => exact ⟨hp.1, fun answer _ => ih answer (hp.2 answer)⟩

theorem Meets.attempt (hp : p.Meets gives asks ends) :
    p.attempt.Meets gives asks fun result => ∀ a, result = .ok a → ends a := by
  induction p with
  | done value =>
      rintro a ⟨⟩
      exact hp
  | fail error => exact fun a ha => by simp at ha
  | ask q next ih => exact ⟨hp.1, fun answer hanswer => ih answer (hp.2 answer hanswer)⟩

theorem Meets.during (hp : p.Meets gives asks ends) (course : String) :
    (p.during course).Meets gives asks ends := by
  refine hp.attempt.bind fun result hresult => ?_
  cases result with
  | ok a => exact hresult a rfl
  | error error => trivial

/-- What is asked and what comes of it in a world that gives the right answers.  An
invariant of the states says what the answers depend on. -/
theorem Meets.of_invariant (holds : σ → Prop) (hworld : Total world)
    (hstep : ∀ {q s answer t}, holds s → asks q → world q s = (.ok answer, t) →
      gives ⟨q, answer⟩ ∧ holds t)
    (hp : p.Meets gives asks ends) (hs : holds s) :
    holds (p.run world s).2 ∧ (∀ reply ∈ p.replies world s, asks reply.question) ∧
      ∀ a, (p.run world s).1 = .ok a → ends a := by
  induction p generalizing s with
  | done value =>
      refine ⟨hs, by simp [replies], ?_⟩
      rintro a ⟨⟩
      exact hp
  | fail error => exact ⟨hs, by simp [replies], fun a ha => by simp at ha⟩
  | ask q next ih =>
      obtain ⟨answer, later, hanswer⟩ := hworld q s
      obtain ⟨hgives, hlater⟩ := hstep hs hp.1 hanswer
      obtain ⟨hend, hasks, hvalue⟩ := ih answer (hp.2 answer hgives) hlater
      rw [run_ask_of_ok hanswer]
      refine ⟨hend, fun reply hreply => ?_, hvalue⟩
      simp only [replies, hanswer] at hreply
      rcases List.mem_cons.1 hreply with rfl | hrest
      · exact hp.1
      · exact hasks reply hrest

end Meets

/-! ## Plans that give up on bad answers -/

/-- Whatever the answers are, the plan puts no question outside `asks`, and it fails at
once when an answer is bad. -/
def Heeds (asks : I.Question → Prop) (bad : Reply I → Prop) : Plan I α → Prop
  | done _ => True
  | fail _ => True
  | ask q next => asks q ∧ ∀ answer,
      (bad ⟨q, answer⟩ → ∃ error, next answer = fail error) ∧ (next answer).Heeds asks bad

namespace Heeds

theorem bind (hp : p.Heeds asks bad) (hf : ∀ a, (f a).Heeds asks bad) :
    (p >>= f).Heeds asks bad := by
  induction p with
  | done value => exact hf value
  | fail error => trivial
  | ask q next ih =>
      refine ⟨hp.1, fun answer => ⟨fun hbad => ?_, ih answer (hp.2 answer).2⟩⟩
      obtain ⟨error, herror⟩ := (hp.2 answer).1 hbad
      exact ⟨error, congrArg (fun p => p.bind f) herror⟩

theorem map {g : α → β} (hp : p.Heeds asks bad) : (g <$> p).Heeds asks bad := by
  rw [map_eq_pure_bind]
  exact hp.bind fun _ => trivial

theorem all {plans : List (Plan I α)} (h : ∀ p ∈ plans, p.Heeds asks bad) :
    (Plan.all plans).Heeds asks bad := by
  induction plans with
  | nil => trivial
  | cons p plans ih =>
      obtain ⟨hp, hplans⟩ := List.forall_mem_cons.1 h
      exact hp.bind fun _ => (ih hplans).bind fun _ => trivial

theorem ofOption (error : Error) (found : Option α) :
    (Plan.ofOption error found : Plan I α).Heeds asks bad := by
  cases found with
  | none => trivial
  | some a => trivial

theorem ofExcept (found : Except Error α) :
    (Plan.ofExcept found : Plan I α).Heeds asks bad := by
  cases found with
  | error error => trivial
  | ok a => trivial

theorem asksOnly (hp : p.Heeds asks bad) : p.AsksOnly asks := by
  induction p with
  | done value => trivial
  | fail error => trivial
  | ask q next ih => exact ⟨hp.1, fun answer => ih answer (hp.2 answer).2⟩

theorem serve {answer : (q : J.Question) → Plan I (J.Answer q)}
    (hanswer : ∀ q, (answer q).Heeds asks bad) (p : Plan J α) :
    (p.serve answer).Heeds asks bad := by
  induction p with
  | done value => trivial
  | fail error => trivial
  | ask q next ih => exact (hanswer q).bind ih

/-- A run that ends with a value was given no bad answer. -/
theorem not_bad (hp : p.Heeds asks bad) (hrun : p.run world s = (.ok a, t)) {reply : Reply I}
    (hreply : reply ∈ p.replies world s) : ¬ bad reply := by
  induction p generalizing s with
  | done value => simp [replies] at hreply
  | fail error => simp [replies] at hreply
  | ask q next ih =>
      unfold replies at hreply
      unfold Plan.run at hrun
      cases hanswer : world q s with
      | mk outcome later =>
          cases outcome with
          | ok answer =>
              rw [hanswer] at hreply hrun
              rcases List.mem_cons.1 hreply with rfl | hrest
              · intro hbad
                obtain ⟨error, herror⟩ := (hp.2 answer).1 hbad
                simp [herror] at hrun
              · exact ih answer (hp.2 answer).2 hrun hrest
          | error error => simp [hanswer] at hreply

end Heeds

end Plan

end TeamDigest
