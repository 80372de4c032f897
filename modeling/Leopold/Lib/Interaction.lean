import Leopold.Lib.Transition
import Mathlib.Data.Set.Defs

/-!
# Programs that ask their environment

A program returns or asks the environment for an answer and goes on with it.  A protocol says what
the environment may answer in a world, what a program may ask there, and which invariant the world
keeps.  Programs that are safe for a protocol can be started again and again, and dropped at any
question: the invariant stays, and nothing that is not allowed is ever asked.
-/

namespace Leopold.Lib

/-- A program that asks questions `ρ`, with answers `σ`, and returns in `α`. -/
inductive Program (ρ : Type) (σ : ρ → Type) (α : Type)
  | done (a : α)
  | ask (r : ρ) (k : σ r → Program ρ σ α)

namespace Program

variable {ρ : Type} {σ : ρ → Type} {α β ε Ω : Type}

def bind (p : Program ρ σ α) (f : α → Program ρ σ β) : Program ρ σ β :=
  match p with
  | .done a => f a
  | .ask r k => .ask r fun answer => (k answer).bind f

instance : Monad (Program ρ σ) where
  pure := .done
  bind := .bind

/-- The result when every question gets the answer the oracle gives. -/
def eval (oracle : (r : ρ) → σ r) : Program ρ σ α → α
  | .done a => a
  | .ask r k => (k (oracle r)).eval oracle

@[simp] theorem eval_bind {oracle : (r : ρ) → σ r} {p : Program ρ σ α} {f : α → Program ρ σ β} :
    (p >>= f).eval oracle = (f (p.eval oracle)).eval oracle := by
  induction p with
  | done a => rfl
  | ask r k ih => exact ih (oracle r)

@[simp] theorem eval_pure {oracle : (r : ρ) → σ r} {a : α} :
    (pure a : Program ρ σ α).eval oracle = a := rfl

/-- The first part is evaluated, then the rest unless it failed. -/
theorem eval_bindExcept {oracle : (r : ρ) → σ r} {p : ExceptT ε (Program ρ σ) α}
    {f : α → ExceptT ε (Program ρ σ) β} :
    (p >>= f).run.eval oracle =
      match p.run.eval oracle with
      | .ok a => (f a).run.eval oracle
      | .error e => .error e := by
  refine (eval_bind (p := p.run)).trans ?_
  rcases p.run.eval oracle with e | a <;> rfl

theorem eval_bindExcept_ok {oracle : (r : ρ) → σ r} {p : ExceptT ε (Program ρ σ) α}
    {f : α → ExceptT ε (Program ρ σ) β} {a : α} (h : p.run.eval oracle = .ok a) :
    (p >>= f).run.eval oracle = (f a).run.eval oracle := by
  rw [eval_bindExcept, h]

@[simp] theorem eval_pureExcept {oracle : (r : ρ) → σ r} {a : α} :
    (pure a : ExceptT ε (Program ρ σ) α).run.eval oracle = .ok a := rfl

/-- What the program asks first. -/
def question : Program ρ σ α → Option ρ
  | .done _ => none
  | .ask r _ => some r

theorem exists_of_question {p : Program ρ σ α} {r : ρ} (h : p.question = some r) :
    ∃ k, p = .ask r k := by
  cases p with
  | done a => cases h
  | ask r' k =>
    obtain rfl := Option.some.inj h
    exact ⟨k, rfl⟩

/-! ### Transcripts -/

/-- What was asked and answered, latest first. -/
abbrev Transcript (ρ : Type) (σ : ρ → Type) : Type := List ((r : ρ) × σ r)

/-- Started after one transcript, the program asks `r` after the other. -/
inductive Asks (r : ρ) : Program ρ σ α → Transcript ρ σ → Transcript ρ σ → Prop
  | here {k : σ r → Program ρ σ α} {t : Transcript ρ σ} : Asks r (.ask r k) t t
  | later {r' : ρ} {k : σ r' → Program ρ σ α} {answer : σ r'} {t t' : Transcript ρ σ}
      (h : Asks r (k answer) (⟨r', answer⟩ :: t) t') : Asks r (.ask r' k) t t'

/-- What is left to run, and the transcript, after some answers of an oracle. -/
def follow (oracle : (r : ρ) → σ r) :
    Nat → Program ρ σ α → Transcript ρ σ → Program ρ σ α × Transcript ρ σ
  | n + 1, .ask r k, t => follow oracle n (k (oracle r)) (⟨r, oracle r⟩ :: t)
  | _, p, t => (p, t)

theorem Asks.of_follow {oracle : (r : ρ) → σ r} {n : Nat} {p : Program ρ σ α}
    {t : Transcript ρ σ} {r : ρ} (h : (follow oracle n p t).1.question = some r) :
    Asks r p t (follow oracle n p t).2 := by
  induction n generalizing p t with
  | zero =>
    cases p with
    | done a => cases h
    | ask r' k =>
      obtain rfl := Option.some.inj h
      exact .here
  | succ n ih =>
    cases p with
    | done a => cases h
    | ask r' k => exact .later (ih h)

end Program

/-- What may be asked and answered in a world, and what every world keeps. -/
structure Protocol (Ω : Type) (ρ : Type) (σ : ρ → Type) where
  inv : Ω → Prop
  allowed : ρ → Ω → Prop
  answers : Ω → (r : ρ) → σ r → Ω → Prop

namespace Protocol

variable {ρ : Type} {σ : ρ → Type} {α β ε Ω : Type} (P : Protocol Ω ρ σ)

/-- From the world `w` the program asks only what is allowed, keeps the invariant, and returns
only where the postcondition holds. -/
def Safe (post : α → Ω → Prop) : Program ρ σ α → Ω → Prop
  | .done a, w => post a w
  | .ask r k, w => P.allowed r w ∧
      ∀ answer w', P.answers w r answer w' → P.inv w' ∧ Safe post (k answer) w'

variable {P} {post post' : α → Ω → Prop} {p : Program ρ σ α} {w : Ω}

theorem Safe.mono (hpost : ∀ a w, post a w → post' a w) (h : P.Safe post p w) :
    P.Safe post' p w := by
  induction p generalizing w with
  | done a => exact hpost a w h
  | ask r k ih =>
    refine ⟨h.1, fun answer w' ha => ?_⟩
    obtain ⟨hinv, hk⟩ := h.2 answer w' ha
    exact ⟨hinv, ih answer hk⟩

/-- **Sequence rule.** -/
theorem Safe.bind {f : α → Program ρ σ β} {post : β → Ω → Prop}
    (h : P.Safe (fun a => P.Safe post (f a)) p w) : P.Safe post (p >>= f) w := by
  induction p generalizing w with
  | done a => exact h
  | ask r k ih =>
    refine ⟨h.1, fun answer w' ha => ?_⟩
    obtain ⟨hinv, hk⟩ := h.2 answer w' ha
    exact ⟨hinv, ih answer hk⟩

/-- **Sequence rule** with exceptions: a failure of the first part is one of the whole. -/
theorem Safe.bindExcept {p : ExceptT ε (Program ρ σ) α} {f : α → ExceptT ε (Program ρ σ) β}
    {post : Except ε β → Ω → Prop}
    (h : P.Safe (fun result w' =>
      match result with
      | .ok a => P.Safe post (f a).run w'
      | .error e => post (.error e) w') p.run w) :
    P.Safe post (p >>= f).run w := by
  refine Safe.bind (p := p.run) (Safe.mono ?_ h)
  rintro (e | a) w' hw'
  · exact hw'
  · exact hw'

/-! ### Results without exceptions -/

variable (P) in
/-- The program is safe, and where it returns the postcondition holds. -/
def Returns (post : α → Ω → Prop) (p : ExceptT ε (Program ρ σ) α) (w : Ω) : Prop :=
  P.Safe (fun result w' => ∀ a, result = .ok a → post a w') p.run w

section Returns

variable {post post' : α → Ω → Prop} {p : ExceptT ε (Program ρ σ) α}

theorem Returns.mono (hpost : ∀ a w, post a w → post' a w) (h : P.Returns post p w) :
    P.Returns post' p w :=
  Safe.mono (fun _ w hw a ha => hpost a w (hw a ha)) h

theorem Returns.bind {f : α → ExceptT ε (Program ρ σ) β} {post : β → Ω → Prop}
    (h : P.Returns (fun a w' => P.Returns post (f a) w') p w) :
    P.Returns post (p >>= f) w := by
  refine Safe.bindExcept (Safe.mono ?_ h)
  rintro (e | a) w' hw'
  · rintro b ⟨⟩
  · exact hw' a rfl

theorem Returns.pure {a : α} (h : post a w) :
    P.Returns post (pure a : ExceptT ε (Program ρ σ) α) w := by
  rintro _ ⟨⟩
  exact h

theorem Returns.throw {e : ε} :
    P.Returns post (throw e : ExceptT ε (Program ρ σ) α) w := by
  rintro _ ⟨⟩

end Returns

/-! ### Recorded runs -/

/-- Every answer is possible, and all of them are recorded. -/
def recorded (allowed : ρ → Program.Transcript ρ σ → Prop) :
    Protocol (Program.Transcript ρ σ) ρ σ where
  inv _ := True
  allowed := allowed
  answers t r answer t' := t' = ⟨r, answer⟩ :: t

/-- Whatever the answers, a safe program asks only what is allowed. -/
theorem Safe.allowed_of_asks {allowed : ρ → Program.Transcript ρ σ → Prop}
    {t t' : Program.Transcript ρ σ} {p : Program ρ σ α}
    {post : α → Program.Transcript ρ σ → Prop} {r : ρ}
    (hsafe : (recorded allowed).Safe post p t) (h : p.Asks r t t') : allowed r t' := by
  induction h with
  | here => exact hsafe.1
  | later _ ih => exact ih (hsafe.2 _ _ rfl).2

/-! ### Sessions -/

/-- A world and the program that is running in it. -/
structure Session (Ω : Type) (ρ : Type) (σ : ρ → Type) (α : Type) where
  world : Ω
  running : Option (Program ρ σ α)

inductive SessionEvent
  | start
  | answer
  | crash
  | finish
  deriving DecidableEq

/-- Programs of `mains` are run one at a time; a running one may be dropped at any question. -/
inductive SessionStep (P : Protocol Ω ρ σ) (mains : Set (Program ρ σ α)) :
    Session Ω ρ σ α → SessionEvent → Session Ω ρ σ α → Prop
  | start {w : Ω} {p : Program ρ σ α} (h : p ∈ mains) :
      SessionStep P mains ⟨w, none⟩ .start ⟨w, some p⟩
  | answer {w w' : Ω} {r : ρ} {k : σ r → Program ρ σ α} {answer : σ r}
      (h : P.answers w r answer w') :
      SessionStep P mains ⟨w, some (.ask r k)⟩ .answer ⟨w', some (k answer)⟩
  | crash {w : Ω} {p : Program ρ σ α} : SessionStep P mains ⟨w, some p⟩ .crash ⟨w, none⟩
  | finish {w : Ω} {a : α} : SessionStep P mains ⟨w, some (.done a)⟩ .finish ⟨w, none⟩

def sessions (P : Protocol Ω ρ σ) (mains : Set (Program ρ σ α)) (init : Ω → Prop) :
    TransitionSystem (Session Ω ρ σ α) SessionEvent where
  init s := init s.world ∧ s.running = none
  step := SessionStep P mains

variable {mains : Set (Program ρ σ α)} {init : Ω → Prop} {s : Session Ω ρ σ α}

/-- What is left to run, and the world, after some answers of an oracle. -/
def play (oracle : Ω → (r : ρ) → σ r × Ω) : Nat → Program ρ σ α → Ω → Program ρ σ α × Ω
  | n + 1, .ask r k, w => play oracle n (k (oracle w r).1) (oracle w r).2
  | _, p, w => (p, w)

theorem Session.reachable_play {oracle : Ω → (r : ρ) → σ r × Ω} {p : Program ρ σ α} {w : Ω}
    (horacle : ∀ w r, P.answers w r (oracle w r).1 (oracle w r).2)
    (h : (P.sessions mains init).Reachable ⟨w, some p⟩) (n : Nat) :
    (P.sessions mains init).Reachable
      ⟨(play oracle n p w).2, some (play oracle n p w).1⟩ := by
  induction n generalizing p w with
  | zero => cases p <;> exact h
  | succ n ih =>
    cases p with
    | done a => exact h
    | ask r k => exact ih (h.step (.answer (horacle w r)) trivial)

/-- What is kept of a session: the invariant, and the safety of what is running. -/
structure Kept (P : Protocol Ω ρ σ) (s : Session Ω ρ σ α) : Prop where
  inv : P.inv s.world
  safe : ∀ p ∈ s.running, P.Safe (fun _ _ => True) p s.world

/-- **Adequacy.**  Where every program is safe from every world that keeps the invariant, every
session keeps it. -/
theorem Kept.of_reachable (hinit : ∀ w, init w → P.inv w)
    (hsafe : ∀ p ∈ mains, ∀ w, P.inv w → P.Safe (fun _ _ => True) p w)
    (h : (P.sessions mains init).Reachable s) : P.Kept s := by
  refine h.invariant ?_ ?_
  · rintro s ⟨hs, hnone⟩
    refine ⟨hinit _ hs, ?_⟩
    rw [hnone]
    nofun
  · intro s event s' _ hs hstep
    cases hstep with
    | start hp =>
      refine ⟨hs.inv, ?_⟩
      rintro _ ⟨⟩
      exact hsafe _ hp _ hs.inv
    | answer ha =>
      obtain ⟨hinv, hk⟩ := (hs.safe _ rfl).2 _ _ ha
      refine ⟨hinv, ?_⟩
      rintro _ ⟨⟩
      exact hk
    | crash => exact ⟨hs.inv, nofun⟩
    | finish => exact ⟨hs.inv, nofun⟩

/-- What is asked is allowed. -/
theorem Kept.allowed (h : P.Kept s) {r : ρ} {k : σ r → Program ρ σ α}
    (hr : s.running = some (.ask r k)) : P.allowed r s.world :=
  (h.safe _ hr).1

end Protocol

end Leopold.Lib
