import BudgetedRun.Engine

/-!
# Surroundings with a state

Surroundings whose state is a value of some type `σ` can behave in any way at all: what they answer
may depend on everything that has been asked before. `Environment.Reachable` says which worlds they
can be brought to, `Environment.Forward` that the time of day never goes back in them.

What is proved of a run is proved for actions that keep a property of worlds: `Keeps` composes along
the actions that a run is made of.
-/

namespace BudgetedRun

variable {σ : Type}

namespace Environment

/-- The worlds that surroundings can be brought to by asking them for something, again and again. -/
inductive Reachable (env : Environment (StateM σ)) (w : σ) : σ → Prop where
  | refl : Reachable env w w
  | now {w' : σ} : Reachable env w w' → Reachable env w (env.now.run w').2
  | steady {w' : σ} : Reachable env w w' → Reachable env w (env.steady.run w').2
  | cancelled {w' : σ} : Reachable env w w' → Reachable env w (env.cancelled.run w').2
  | call {w' : σ} (request : Request) :
      Reachable env w w' → Reachable env w ((env.call request).run w').2
  | save {w' : σ} (s : RunState) : Reachable env w w' → Reachable env w ((env.save s).run w').2

/-- The time of day never goes back: no reading is before an earlier one, whatever is asked for in
between. -/
def Forward (env : Environment (StateM σ)) (w : σ) : Prop :=
  ∀ {first second : σ}, env.Reachable w first → env.Reachable (env.now.run first).2 second →
    (env.now.run first).1 ≤ (env.now.run second).1

/-- A property of worlds is kept whatever is asked for, and where it holds the time of day reads as
it should. -/
structure Respects (env : Environment (StateM σ)) (clock : Timestamp → Prop) (good : σ → Prop) :
    Prop where
  now : ∀ w, good w → clock (env.now.run w).1 ∧ good (env.now.run w).2
  steady : ∀ w, good w → good (env.steady.run w).2
  cancelled : ∀ w, good w → good (env.cancelled.run w).2
  call : ∀ request w, good w → good ((env.call request).run w).2
  save : ∀ s w, good w → good ((env.save s).run w).2

theorem respects_true (env : Environment (StateM σ)) :
    env.Respects (fun _ => True) (fun _ => True) := by
  constructor <;> intros <;> trivial

/-- After a reading of a time of day that never goes back, no other reading is before it. -/
theorem Forward.respects {env : Environment (StateM σ)} {w first : σ} (forward : env.Forward w)
    (reached : env.Reachable w first) :
    env.Respects (fun t => (env.now.run first).1 ≤ t)
      (fun w' => env.Reachable (env.now.run first).2 w') where
  now _ after := ⟨forward reached after, after.now⟩
  steady _ after := after.steady
  cancelled _ after := after.cancelled
  call request _ after := after.call request
  save s _ after := after.save s

end Environment

/-- An action keeps a property of worlds, and gives a result with some property. -/
def Keeps (good : σ → Prop) {α : Type} (x : StateM σ α) (post : α → Prop) : Prop :=
  ∀ w, good w → post (x.run w).1 ∧ good (x.run w).2

namespace Keeps

variable {good : σ → Prop} {α β : Type} {post : α → Prop} {post' : β → Prop}

theorem pure {a : α} (holds : post a) : Keeps good (Pure.pure a : StateM σ α) post :=
  fun _ well => ⟨holds, well⟩

theorem bind {x : StateM σ α} {f : α → StateM σ β} (first : Keeps good x post)
    (next : ∀ a, post a → Keeps good (f a) post') : Keeps good (x >>= f) post' := by
  intro w well
  obtain ⟨holds, still⟩ := first w well
  exact next _ holds _ still

end Keeps

namespace Environment.Respects

variable {env : Environment (StateM σ)} {clock : Timestamp → Prop} {good : σ → Prop}

/-- To read the time of day keeps a property, and reads as the property says. -/
theorem keeps_now (respects : env.Respects clock good) : Keeps good env.now clock :=
  respects.now

theorem keeps_steady (respects : env.Respects clock good) :
    Keeps good env.steady fun _ => True :=
  fun w well => ⟨trivial, respects.steady w well⟩

theorem keeps_cancelled (respects : env.Respects clock good) :
    Keeps good env.cancelled fun _ => True :=
  fun w well => ⟨trivial, respects.cancelled w well⟩

theorem keeps_call (respects : env.Respects clock good) (request : Request) :
    Keeps good (env.call request) fun _ => True :=
  fun w well => ⟨trivial, respects.call request w well⟩

theorem keeps_save (respects : env.Respects clock good) (s : RunState) :
    Keeps good (env.save s) fun _ => True :=
  fun w well => ⟨trivial, respects.save s w well⟩

end Environment.Respects

end BudgetedRun
