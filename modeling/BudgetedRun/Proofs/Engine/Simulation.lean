import BudgetedRun.Proofs.Store.Directory
import BudgetedRun.Simulation

/-!
# The clock of simulated surroundings

Whatever is asked of a simulated world, its clock of the day shows the same readings and counts them
on. If the readings never go back, the surroundings are `Environment.Forward`.
-/

namespace BudgetedRun

/-- Worlds whose actions keep a property are as they should be wherever they are brought to. -/
theorem Environment.Reachable.good {σ : Type} {env : Environment (StateM σ)}
    {clock : Timestamp → Prop} {good : σ → Prop} {w w' : σ} (reached : env.Reachable w w')
    (respects : env.Respects clock good) (well : good w) : good w' := by
  induction reached with
  | refl => exact well
  | now _ ih => exact (respects.now _ ih).2
  | steady _ ih => exact respects.steady _ ih
  | cancelled _ ih => exact respects.cancelled _ ih
  | call request _ ih => exact respects.call request _ ih
  | save s _ ih => exact respects.save s _ ih

namespace Machine

/-- The clock of the day shows some readings, of which there were at least so many. -/
structure Shows (readings : Nat → Timestamp) (n : Nat) (machine : Machine) : Prop where
  dayClock : machine.dayClock = readings
  readings : n ≤ machine.readings

variable {readings : Nat → Timestamp} {n : Nat}

theorem shows_change (f : Disk → Except FileError Disk) :
    Keeps (Shows readings n) (change f) fun _ => True :=
  keeps_change fun _ _ _ shows => ⟨shows.dayClock, shows.readings⟩

theorem keeps_now :
    Keeps (Shows readings n) (Clock.now : StateM Machine Timestamp) fun _ => True :=
  fun _ shows => ⟨trivial, ⟨shows.dayClock, Nat.le_succ_of_le shows.readings⟩⟩

theorem keeps_steady :
    Keeps (Shows readings n) (Clock.steady : StateM Machine Duration) fun _ => True :=
  fun _ shows => ⟨trivial, ⟨shows.dayClock, Nat.le_succ_of_le shows.readings⟩⟩

theorem keeps_sleep (time : Duration) :
    Keeps (Shows readings n) (Clock.sleep time : StateM Machine Unit) fun _ => True :=
  fun _ shows => ⟨trivial, ⟨shows.dayClock, shows.readings⟩⟩

/-- Keeping a state in a directory reads no clock. -/
theorem keeps_save (base : String) (s : RunState) :
    Keeps (Shows readings n)
      (DirectoryStore.save base s : StateM Machine (Except StoreError Unit)) fun _ => True := by
  have makes (path : String) : Keeps (Shows readings n)
      (FileSystem.makeDirectories path : StateM Machine (Except FileError Unit)) fun _ => True :=
    fun _ shows => ⟨trivial, ⟨shows.dayClock, shows.readings⟩⟩
  have tags : Keeps (Shows readings n)
      (FileSystem.freshTag : StateM Machine TemporaryTag) fun _ => True :=
    fun _ shows => ⟨trivial, ⟨shows.dayClock, shows.readings⟩⟩
  unfold DirectoryStore.save
  split
  · exact .pure trivial
  · exact DirectoryStore.keeps_replace (makes _) tags (fun _ => shows_change (·.write _ _))
      (fun _ => shows_change (·.rename _ _)) fun _ => shows_change (·.remove _)

end Machine

namespace World

variable {readings : Nat → Timestamp} {n : Nat}

/-- The clock of the day of a world shows some readings, of which there were at least so many. -/
def Shows (readings : Nat → Timestamp) (n : Nat) (world : World) : Prop :=
  world.machine.Shows readings n

theorem keeps_onMachine {α : Type} {action : StateM Machine α} {post : α → Prop}
    (keeps : Keeps (Machine.Shows readings n) action post) :
    Keeps (Shows readings n) (onMachine action) post :=
  fun world shows => keeps world.machine shows

theorem keeps_call (request : Request) :
    Keeps (Shows readings n) (call request) fun _ => True := by
  intro world shows
  exact ⟨trivial, (Machine.keeps_sleep world.latency _ shows).2⟩

theorem keeps_save (s : RunState) : Keeps (Shows readings n) (store.save s) fun _ => True := by
  intro world shows
  cases keeping : world.keeping with
  | memory =>
      refine ⟨trivial, ?_⟩
      have saved : ((store.save s).run world).2.machine = world.machine := by
        change ((storeOf world.keeping).save s |>.run world).2.machine = world.machine
        rw [keeping]
        rfl
      rw [Shows, saved]
      exact shows
  | directory base =>
      refine ⟨trivial, ?_⟩
      change Shows readings n ((storeOf world.keeping).save s |>.run world).2
      rw [keeping]
      exact (keeps_onMachine (Machine.keeps_save base s) world shows).2

/-- Nothing that a run asks of a world changes what its clock shows, or takes readings back. -/
theorem respects_shows :
    environment.Respects (fun _ => True) (Shows readings n) where
  now world shows := keeps_onMachine Machine.keeps_now world shows
  steady world shows := (keeps_onMachine Machine.keeps_steady world shows).2
  cancelled _ shows := shows
  call request world shows := (keeps_call request world shows).2
  save s world shows := (keeps_save s world shows).2

/-- Simulated surroundings are forward if the readings of their clock never go back. -/
theorem environment_forward {world : World}
    (forward : ∀ i j, i ≤ j → world.machine.dayClock i ≤ world.machine.dayClock j) :
    environment.Forward world := by
  intro first second reached later
  have before : Shows world.machine.dayClock 0 first :=
    reached.good respects_shows ⟨rfl, Nat.zero_le _⟩
  have after : Shows world.machine.dayClock (first.machine.readings + 1) second :=
    later.good respects_shows ⟨before.dayClock, Nat.le_refl _⟩
  change first.machine.dayClock first.machine.readings ≤
    second.machine.dayClock second.machine.readings
  rw [before.dayClock, after.dayClock]
  exact forward _ _ (Nat.le_of_succ_le after.readings)

/-- A store in memory changes nothing but what it keeps. -/
theorem save_memory {world : World} (memory : world.keeping = .memory) (s : RunState) :
    (store.save s).run world =
      ((world.memory.save s).1, { world with memory := (world.memory.save s).2 }) := by
  change ((storeOf world.keeping).save s).run world = _
  conv => lhs; rw [memory]
  rfl

/-- A moment for rehearsals. -/
def dawn : Timestamp := ⟨⟨2025, 1, 1⟩, ⟨6, 0, 0, 0⟩, by decide, by decide⟩

/-- A world in which the clocks stand still, with a script and a store in memory. -/
def rehearsal (script : Script) (failing : FailingWrites) : World where
  machine :=
    { disk := ⟨.directory [], []⟩
      process := 0
      tags := 0
      dayClock := fun _ => dawn
      steadyClock := fun _ => 0
      readings := 0
      waited := 0 }
  memory := .empty failing
  keeping := .memory
  player := .script script
  latency := ⟨0⟩
  errorContext := none
  calls := 0
  cancelOnCall := none
  cancelled := false
  cancellable := true

/-- In a rehearsal the time of day never goes back. -/
theorem rehearsal_forward (script : Script) (failing : FailingWrites) :
    environment.Forward (rehearsal script failing) := by
  apply environment_forward
  intro i j _
  exact Timestamp.le_refl dawn

end World

/-- A plan of two steps for rehearsals, with a name for its run. -/
def Job.rehearsal : Job := ⟨.sample "plan" 2, "run", "."⟩

theorem Job.rehearsal_valid : Job.rehearsal.plan.validate = .ok () := by rfl

/-- Budgets for rehearsals. -/
def Budgets.rehearsal : Budgets := ⟨⟨5, 100, none⟩, by decide, by decide, by decide⟩

/-- Budgets for rehearsals that three calls can use up. -/
def Budgets.scant : Budgets := ⟨⟨3, 18, none⟩, by decide, by decide, by decide⟩

/-- Budgets for rehearsals with the greatest token limit that there is. -/
def Budgets.lavish : Budgets :=
  ⟨⟨5, 18446744073709551615, none⟩, by decide, by decide, by decide⟩

end BudgetedRun
