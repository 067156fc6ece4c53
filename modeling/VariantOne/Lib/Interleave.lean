import Mathlib.Algebra.GroupWithZero.Nat
import VariantOne.Lib.Machine

/-!
# Programs that run in steps, and their interleavings

An operation of a service is a *program*: it performs one step after the other
on a shared store, looks at what each replied, and returns or raises.  `Prog` is
the tree of what it does next.  Between two steps of one program any step of
another may come, so a state of the service is the store with the programs under
way (`Crowd`), and one step of the service is one step of one of them.

`Prog.Ensures` is the logic of a single program: every step it can come to is as
`P` asks, given the replies so far, and it ends as `Q` asks, whatever the
replies are.  `Service.rule` carries such facts to the interleaved service: what
every step keeps, when it is made as its program ensures and on a store that
bears out the replies so far, holds in every state the service reaches.
-/

namespace VariantOne

/-- A program over the steps `τ`, where `t` replies in `ρ t`.  It returns `α` or
raises `ε`; a step that fails replies with what it raised. -/
inductive Prog (τ : Type) (ρ : τ → Type) (ε α : Type) where
  | ret (a : α)
  | raise (e : ε)
  | call (t : τ) (next : Except ε (ρ t) → Prog τ ρ ε α)

/-- A step and its reply. -/
abbrev Entry (τ : Type) (ρ : τ → Type) (ε : Type) := (t : τ) × Except ε (ρ t)

namespace Prog

variable {τ : Type} {ρ : τ → Type} {ε α β : Type}

/-- One program after the other. -/
def bind (p : Prog τ ρ ε α) (f : α → Prog τ ρ ε β) : Prog τ ρ ε β :=
  match p with
  | .ret a => f a
  | .raise e => .raise e
  | .call t next => .call t fun r => (next r).bind f

/-- A program whose exceptions are handled. -/
def handle (p : Prog τ ρ ε α) (handler : ε → Prog τ ρ ε α) : Prog τ ρ ε α :=
  match p with
  | .ret a => .ret a
  | .raise e => handler e
  | .call t next => .call t fun r => (next r).handle handler

instance : Monad (Prog τ ρ ε) where
  pure := .ret
  bind := bind

instance : MonadExceptOf ε (Prog τ ρ ε) where
  throw := .raise
  tryCatch := handle

/-- What a reply says about how to go on. -/
def ofExcept : Except ε α → Prog τ ρ ε α
  | .ok a => .ret a
  | .error e => .raise e

/-- One step: go on with its reply, or raise what it raised. -/
def request (t : τ) : Prog τ ρ ε (ρ t) := .call t ofExcept

/-- Raise unless a condition holds. -/
def ensure (c : Prop) [Decidable c] (e : ε) : Prog τ ρ ε Unit := if c then .ret () else .raise e

/-! ## What a program ensures -/

/-- Every step that the program comes to is as `P` asks of it and of the replies
so far, newest first, and the program ends as `Q` asks. -/
def Ensures (P : List (Entry τ ρ ε) → τ → Prop) (Q : List (Entry τ ρ ε) → Except ε α → Prop)
    (p : Prog τ ρ ε α) (done : List (Entry τ ρ ε)) : Prop :=
  match p with
  | .ret a => Q done (.ok a)
  | .raise e => Q done (.error e)
  | .call t next => P done t ∧ ∀ r, (next r).Ensures P Q (⟨t, r⟩ :: done)

variable {P P' : List (Entry τ ρ ε) → τ → Prop}
  {Q Q' : List (Entry τ ρ ε) → Except ε α → Prop} {done : List (Entry τ ρ ε)}

@[simp] theorem ensures_ret {a : α} : (ret a : Prog τ ρ ε α).Ensures P Q done ↔ Q done (.ok a) :=
  Iff.rfl

@[simp] theorem ensures_pure {a : α} :
    (pure a : Prog τ ρ ε α).Ensures P Q done ↔ Q done (.ok a) := Iff.rfl

@[simp] theorem ensures_raise {e : ε} :
    (raise e : Prog τ ρ ε α).Ensures P Q done ↔ Q done (.error e) := Iff.rfl

theorem ensures_call {t : τ} {next : Except ε (ρ t) → Prog τ ρ ε α} :
    (call t next).Ensures P Q done ↔ P done t ∧ ∀ r, (next r).Ensures P Q (⟨t, r⟩ :: done) :=
  Iff.rfl

theorem ensures_ofExcept {r : Except ε α} :
    (ofExcept r : Prog τ ρ ε α).Ensures P Q done ↔ Q done r := by
  cases r <;> rfl

theorem ensures_request {t : τ} {Q : List (Entry τ ρ ε) → Except ε (ρ t) → Prop} :
    (request t).Ensures P Q done ↔ P done t ∧ ∀ r, Q (⟨t, r⟩ :: done) r := by
  unfold request
  simp only [ensures_call, ensures_ofExcept]

/-- **Consequence.** -/
theorem Ensures.mono {p : Prog τ ρ ε α} (h : p.Ensures P Q done)
    (hP : ∀ done t, P done t → P' done t) (hQ : ∀ done r, Q done r → Q' done r) :
    p.Ensures P' Q' done := by
  induction p generalizing done with
  | ret a => exact hQ _ _ h
  | raise e => exact hQ _ _ h
  | call t next ih => exact ⟨hP _ _ h.1, fun r => ih r (h.2 r)⟩

/-- Two facts about one program. -/
theorem Ensures.and {p : Prog τ ρ ε α} (h : p.Ensures P Q done) (h' : p.Ensures P' Q' done) :
    p.Ensures (fun done t => P done t ∧ P' done t) (fun done r => Q done r ∧ Q' done r) done := by
  induction p generalizing done with
  | ret a => exact ⟨h, h'⟩
  | raise e => exact ⟨h, h'⟩
  | call t next ih => exact ⟨⟨h.1, h'.1⟩, fun r => ih r (h.2 r) (h'.2 r)⟩

/-- What is asked of every step is true of every step that was made. -/
theorem Ensures.made {p : Prog τ ρ ε α} {P : τ → Prop}
    (h : p.Ensures (fun _ t => P t) Q done) :
    p.Ensures (fun _ t => P t)
      (fun done' r => Q done' r ∧ ∃ new, done' = new ++ done ∧ ∀ e ∈ new, P e.1) done := by
  induction p generalizing done with
  | ret a => exact ⟨h, [], rfl, fun e he => absurd he List.not_mem_nil⟩
  | raise e => exact ⟨h, [], rfl, fun e he => absurd he List.not_mem_nil⟩
  | call t next ih =>
      refine ⟨h.1, fun r => (ih r (h.2 r)).mono (fun _ _ ht => ht) ?_⟩
      rintro done' result ⟨hQ, new, rfl, hnew⟩
      refine ⟨hQ, new ++ [⟨t, r⟩], by simp, fun e he => ?_⟩
      rcases List.mem_append.mp he with he | he
      · exact hnew e he
      · rw [List.mem_singleton.mp he]
        exact h.1

/-- **Sequence.** -/
theorem ensures_bind {p : Prog τ ρ ε α} {f : α → Prog τ ρ ε β}
    {Q : List (Entry τ ρ ε) → Except ε β → Prop} :
    (p >>= f).Ensures P Q done ↔
      p.Ensures P (fun done r =>
        match r with
        | .ok a => (f a).Ensures P Q done
        | .error e => Q done (.error e)) done := by
  change (p.bind f).Ensures P Q done ↔ _
  induction p generalizing done with
  | ret a => exact Iff.rfl
  | raise e => exact Iff.rfl
  | call t next ih => exact and_congr_right fun _ => forall_congr' fun r => ih r

/-- **Sequence**, with a fact in the middle. -/
theorem Ensures.bind {p : Prog τ ρ ε α} {f : α → Prog τ ρ ε β}
    {Q : List (Entry τ ρ ε) → Except ε β → Prop} {M : List (Entry τ ρ ε) → Except ε α → Prop}
    (h : p.Ensures P M done) (hok : ∀ done a, M done (.ok a) → (f a).Ensures P Q done)
    (herror : ∀ done e, M done (.error e) → Q done (.error e)) : (p >>= f).Ensures P Q done := by
  rw [ensures_bind]
  refine h.mono (fun _ _ ht => ht) fun done r hr => ?_
  cases r with
  | ok a => exact hok done a hr
  | error e => exact herror done e hr

theorem ensures_request_bind {t : τ} {f : ρ t → Prog τ ρ ε β}
    {Q : List (Entry τ ρ ε) → Except ε β → Prop} :
    (request t >>= f).Ensures P Q done ↔
      P done t ∧ (∀ a, (f a).Ensures P Q (⟨t, .ok a⟩ :: done)) ∧
        ∀ e, Q (⟨t, .error e⟩ :: done) (.error e) := by
  rw [ensures_bind, ensures_request]
  refine and_congr_right fun _ => ⟨fun h => ⟨fun a => h (.ok a), fun e => h (.error e)⟩, ?_⟩
  rintro ⟨hok, herror⟩ (e | a)
  · exact herror e
  · exact hok a

/-- **Handled exceptions.** -/
theorem ensures_handle {p : Prog τ ρ ε α} {handler : ε → Prog τ ρ ε α} :
    (p.handle handler).Ensures P Q done ↔
      p.Ensures P (fun done r =>
        match r with
        | .ok a => Q done (.ok a)
        | .error e => (handler e).Ensures P Q done) done := by
  induction p generalizing done with
  | ret a => exact Iff.rfl
  | raise e => exact Iff.rfl
  | call t next ih => exact and_congr_right fun _ => forall_congr' fun r => ih r

/-! ## A program alone -/

/-- Run a program with nothing in between. -/
def alone {σ : Type} (perform : (t : τ) → σ → Except ε (ρ t) × σ) (p : Prog τ ρ ε α) (s : σ) :
    Except ε α × σ :=
  match p with
  | .ret a => (.ok a, s)
  | .raise e => (.error e, s)
  | .call t next => (next (perform t s).1).alone perform (perform t s).2

section Alone

variable {σ : Type} {perform : (t : τ) → σ → Except ε (ρ t) × σ}

@[simp] theorem alone_ret {a : α} {s : σ} :
    (ret a : Prog τ ρ ε α).alone perform s = (.ok a, s) := rfl

@[simp] theorem alone_pure {a : α} {s : σ} :
    (pure a : Prog τ ρ ε α).alone perform s = (.ok a, s) := rfl

@[simp] theorem alone_raise {e : ε} {s : σ} :
    (raise e : Prog τ ρ ε α).alone perform s = (.error e, s) := rfl

theorem alone_bind {p : Prog τ ρ ε α} {f : α → Prog τ ρ ε β} {s : σ} :
    (p >>= f).alone perform s =
      match p.alone perform s with
      | (.ok a, s') => (f a).alone perform s'
      | (.error e, s') => (.error e, s') := by
  change (p.bind f).alone perform s = _
  induction p generalizing s with
  | ret a => rfl
  | raise e => rfl
  | call t next ih => exact ih _

theorem alone_request {t : τ} {s : σ} : (request t).alone perform s = perform t s := by
  unfold request alone
  cases h : perform t s with
  | mk r s' => cases r <;> rfl

end Alone
end Prog

/-! ## The interleaved service -/

/-- A service: what a step does to the store, the program of each operation `κ`,
and the steps `ω` that are made outside any operation. -/
structure Service (σ τ : Type) (ρ : τ → Type) (ε κ α ω : Type) where
  /-- One step on the store. -/
  perform : (t : τ) → σ → Except ε (ρ t) × σ
  /-- The program of an operation. -/
  program : κ → Prog τ ρ ε α
  /-- The step of an outside event. -/
  outside : ω → τ

/-- An operation under way: what was asked, the replies so far, newest first,
and what is left to do. -/
structure Task (τ : Type) (ρ : τ → Type) (ε κ α : Type) where
  request : κ
  done : List (Entry τ ρ ε)
  rest : Prog τ ρ ε α

/-- The store and the operations under way. -/
structure Crowd (σ τ : Type) (ρ : τ → Type) (ε κ α : Type) where
  store : σ
  tasks : List (Task τ ρ ε κ α)

/-- What can happen: an operation starts, one under way takes a step, or a step
is made from outside. -/
inductive Move (κ ω : Type) where
  | start (k : κ)
  | go (i : Nat)
  | outside (o : ω)
  deriving DecidableEq

namespace Service

variable {σ τ : Type} {ρ : τ → Type} {ε κ α ω : Type}

/-- One move.  A program that has ended takes no further step. -/
def move (S : Service σ τ ρ ε κ α ω) (m : Move κ ω) (w : Crowd σ τ ρ ε κ α) :
    Option (Entry τ ρ ε) × Crowd σ τ ρ ε κ α :=
  match m with
  | .start k => (none, { w with tasks := w.tasks ++ [⟨k, [], S.program k⟩] })
  | .go i =>
      match w.tasks[i]? with
      | some ⟨k, done, .call t next⟩ =>
          let reply := S.perform t w.store
          (some ⟨t, reply.1⟩,
            ⟨reply.2, w.tasks.set i ⟨k, ⟨t, reply.1⟩ :: done, next reply.1⟩⟩)
      | _ => (none, w)
  | .outside o =>
      let reply := S.perform (S.outside o) w.store
      (some ⟨S.outside o, reply.1⟩, { w with store := reply.2 })

/-- The service as a machine, from a store and no operation under way. -/
def machine (S : Service σ τ ρ ε κ α ω) (start : σ) :
    Machine (Crowd σ τ ρ ε κ α) (Move κ ω) (Option (Entry τ ρ ε)) where
  start := ⟨start, []⟩
  step := S.move

variable {S : Service σ τ ρ ε κ α ω} {w w' : Crowd σ τ ρ ε κ α} {o : Option (Entry τ ρ ε)}

@[simp] theorem step_machine (start : σ) (m : Move κ ω) (w : Crowd σ τ ρ ε κ α) :
    (S.machine start).step m w = S.move m w := rfl

/-- The operation that a move lets take a step, and the step. -/
structure Takes (w : Crowd σ τ ρ ε κ α) (i : Nat) (task : Task τ ρ ε κ α) (t : τ)
    (next : Except ε (ρ t) → Prog τ ρ ε α) : Prop where
  under : w.tasks[i]? = some task
  rest : task.rest = .call t next

/-- **What one move can do**: start an operation, nothing, take the step of one
operation, or make a step from outside. -/
theorem move_cases {m : Move κ ω} (h : S.move m w = (o, w')) :
    (w'.store = w.store ∧
        (w'.tasks = w.tasks ∨ ∃ k, w'.tasks = w.tasks ++ [⟨k, [], S.program k⟩])) ∨
      (∃ i task t next r, m = .go i ∧ Takes w i task t next ∧
        S.perform t w.store = (r, w'.store) ∧ o = some ⟨t, r⟩ ∧
        w'.tasks = w.tasks.set i ⟨task.request, ⟨t, r⟩ :: task.done, next r⟩) ∨
      ∃ event r, m = .outside event ∧ S.perform (S.outside event) w.store = (r, w'.store) ∧
        o = some ⟨S.outside event, r⟩ ∧ w'.tasks = w.tasks := by
  cases m with
  | start k =>
      obtain ⟨-, rfl⟩ := Prod.mk.inj h
      exact .inl ⟨rfl, .inr ⟨k, rfl⟩⟩
  | outside event =>
      obtain ⟨rfl, rfl⟩ := Prod.mk.inj h
      exact .inr (.inr ⟨event, _, rfl, rfl, rfl, rfl⟩)
  | go i =>
      unfold move at h
      dsimp only at h
      split at h
      · rename_i k done t next hi
        obtain ⟨rfl, rfl⟩ := Prod.mk.inj h
        exact .inr (.inl ⟨i, ⟨k, done, .call t next⟩, t, next, _, rfl, ⟨hi, rfl⟩, rfl, rfl, rfl⟩)
      · obtain ⟨-, rfl⟩ := Prod.mk.inj h
        exact .inl ⟨rfl, .inl rfl⟩

/-- **The rule of an interleaved service.**  `I` is said of the store, `R` of the
store and a reply that some operation has seen, `P` and `Q` are what each program
ensures.  When `I` holds at the start, and a step made as its program ensures, on
a store that bears out the replies of its operation, keeps `I`, is borne out
itself and leaves borne out what was, all of it holds in every state reached. -/
theorem rule {start : σ} {C : List (Move κ ω × Option (Entry τ ρ ε)) → Crowd σ τ ρ ε κ α →
      Move κ ω → Prop}
    {I : σ → Prop} {R : σ → Entry τ ρ ε → Prop} {P : κ → List (Entry τ ρ ε) → τ → Prop}
    {Q : κ → List (Entry τ ρ ε) → Except ε α → Prop} (hstart : I start)
    (hprogram : ∀ k, (S.program k).Ensures (P k) (Q k) [])
    (hgo : ∀ h w i task t next r s', C h w (.go i) → Takes w i task t next → I w.store →
      (∀ e ∈ task.done, R w.store e) → P task.request task.done t →
      S.perform t w.store = (r, s') → I s' ∧ R s' ⟨t, r⟩ ∧ ∀ e, R w.store e → R s' e)
    (houtside : ∀ h w event r s', C h w (.outside event) → I w.store →
      S.perform (S.outside event) w.store = (r, s') → I s' ∧ ∀ e, R w.store e → R s' e)
    {h : List (Move κ ω × Option (Entry τ ρ ε))} {w : Crowd σ τ ρ ε κ α}
    (hrun : (S.machine start).RunWhere C h w) :
    I w.store ∧ ∀ task ∈ w.tasks, (∀ e ∈ task.done, R w.store e) ∧
      task.rest.Ensures (P task.request) (Q task.request) task.done := by
  refine hrun.invariant (I := fun _ w => I w.store ∧ ∀ task ∈ w.tasks,
    (∀ e ∈ task.done, R w.store e) ∧ task.rest.Ensures (P task.request) (Q task.request) task.done)
    ⟨hstart, fun task htask => absurd htask List.not_mem_nil⟩ ?_
  rintro h w m o w' - ⟨hI, htasks⟩ hC hstep
  rcases move_cases hstep with ⟨hstore, hsame | ⟨k, hnew⟩⟩ |
    ⟨i, task, t, next, r, rfl, htakes, hperform, -, hset⟩ | ⟨event, r, rfl, hperform, -, hsame⟩
  · rw [hstore, hsame]
    exact ⟨hI, htasks⟩
  · rw [hstore, hnew]
    refine ⟨hI, fun task htask => ?_⟩
    rcases List.mem_append.mp htask with htask | htask
    · exact htasks task htask
    · rw [List.mem_singleton.mp htask]
      exact ⟨fun e he => absurd he List.not_mem_nil, hprogram k⟩
  · obtain ⟨hdone, hrest⟩ := htasks task (List.mem_of_getElem? htakes.under)
    rw [htakes.rest, Prog.ensures_call] at hrest
    obtain ⟨hI', hnew, hstable⟩ := hgo h w i task t next r w'.store hC htakes hI hdone hrest.1 hperform
    refine ⟨hI', fun task' htask' => ?_⟩
    rw [hset] at htask'
    rcases List.mem_or_eq_of_mem_set htask' with hold | rfl
    · exact ⟨fun e he => hstable e ((htasks task' hold).1 e he), (htasks task' hold).2⟩
    · refine ⟨fun e he => ?_, hrest.2 r⟩
      rcases List.mem_cons.mp he with rfl | he
      · exact hnew
      · exact hstable e (hdone e he)
  · obtain ⟨hI', hstable⟩ := houtside h w event r w'.store hC hI hperform
    rw [hsame]
    exact ⟨hI', fun task htask =>
      ⟨fun e he => hstable e ((htasks task htask).1 e he), (htasks task htask).2⟩⟩

/-- What every program ensures is ensured of what is left of it, in every run. -/
theorem ensures_rest {start : σ} {C : List (Move κ ω × Option (Entry τ ρ ε)) →
      Crowd σ τ ρ ε κ α → Move κ ω → Prop}
    {P : κ → List (Entry τ ρ ε) → τ → Prop} {Q : κ → List (Entry τ ρ ε) → Except ε α → Prop}
    (hprogram : ∀ k, (S.program k).Ensures (P k) (Q k) [])
    {h : List (Move κ ω × Option (Entry τ ρ ε))} (hrun : (S.machine start).RunWhere C h w)
    {task : Task τ ρ ε κ α} (htask : task ∈ w.tasks) :
    task.rest.Ensures (P task.request) (Q task.request) task.done :=
  ((rule (I := fun _ => True) (R := fun _ _ => True) trivial hprogram
    (fun _ _ _ _ _ _ _ _ _ _ _ _ _ _ => ⟨trivial, trivial, fun _ _ => trivial⟩)
    (fun _ _ _ _ _ _ _ _ => ⟨trivial, fun _ _ => trivial⟩) hrun).2 task htask).2

/-- What the steps of each program keep of its replies holds of the replies of every task. -/
theorem done_invariant {start : σ} {C : List (Move κ ω × Option (Entry τ ρ ε)) →
      Crowd σ τ ρ ε κ α → Move κ ω → Prop}
    {P : κ → List (Entry τ ρ ε) → τ → Prop} {Q : κ → List (Entry τ ρ ε) → Except ε α → Prop}
    {J : κ → List (Entry τ ρ ε) → Prop} (hprogram : ∀ k, (S.program k).Ensures (P k) (Q k) [])
    (hnil : ∀ k, J k [])
    (hcons : ∀ k done t r, P k done t → J k done → J k (⟨t, r⟩ :: done))
    {h : List (Move κ ω × Option (Entry τ ρ ε))} (hrun : (S.machine start).RunWhere C h w) :
    ∀ task ∈ w.tasks, J task.request task.done := by
  refine hrun.invariant (I := fun _ w => ∀ task ∈ w.tasks, J task.request task.done)
    (fun task htask => absurd htask List.not_mem_nil) ?_
  intro h w m o w' hrun htasks _ hstep task htask
  rcases move_cases hstep with ⟨-, hsame | ⟨k, hnew⟩⟩ |
    ⟨i, task', t, next, r, -, htakes, -, -, hset⟩ | ⟨-, -, -, -, -, hsame⟩
  · exact htasks task (hsame ▸ htask)
  · rw [hnew] at htask
    rcases List.mem_append.mp htask with htask | htask
    · exact htasks task htask
    · rw [List.mem_singleton.mp htask]
      exact hnil k
  · rw [hset] at htask
    rcases List.mem_or_eq_of_mem_set htask with hold | rfl
    · exact htasks task hold
    · have hmem := List.mem_of_getElem? htakes.under
      have hrest := ensures_rest hprogram hrun hmem
      rw [htakes.rest, Prog.ensures_call] at hrest
      exact hcons _ _ t r hrest.1 (htasks task' hmem)
  · exact htasks task (hsame ▸ htask)

/-- A total over the tasks changes by what the task that takes a step gains. -/
theorem sum_map_set {β : Type} (f : β → Nat) {xs : List β} {i : Nat} {x : β} (h : xs[i]? = some x)
    (y : β) : ((xs.set i y).map f).sum + f x = (xs.map f).sum + f y := by
  induction xs generalizing i with
  | nil => simp at h
  | cons z xs ih =>
      cases i with
      | zero =>
          obtain rfl : z = x := by simpa using h
          simp only [List.set_cons_zero, List.map_cons, List.sum_cons]
          omega
      | succ i =>
          have hi := ih (i := i) (by simpa using h)
          simp only [List.set_cons_succ, List.map_cons, List.sum_cons]
          omega

end Service
end VariantOne
