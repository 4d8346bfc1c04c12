import TiyGate.Store.Archive

/-!
# Who holds a payload

A worker holds the row from its claim until it has erased the columns or marked
the row as failed.  A lock that is not stale keeps the others away, unless a
capture removes it or another worker, whose claim was taken over, marks the row
as failed.
-/

namespace TiyGate.Store.Archive

open Runs
open Json (FloatText)

/-- The lock that the worker wrote with its claim and has not given back. -/
def Progress.lock? : Progress → Option Nat
  | .uploading lockedAt _ _ _ => some lockedAt
  | .failing lockedAt _ => some lockedAt
  | .marking lockedAt _ _ => some lockedAt
  | _ => none

/-- The row carries this lock. -/
def Row.isLockedBy (row : Row) (lockedAt : Nat) : Bool :=
  row.status == .uploading && row.lockedAt == some lockedAt

section Claims

variable {Worker : Type*} (setup : Setup Worker)

/-- A claim does not return a row that another worker holds with a lock that is
not stale, and marking as failed does not touch a row that is uploaded. -/
def Exclusive (state : State Worker) : Action Worker → Prop
  | .claim worker _ => ∀ startedAt payload row, state.workers worker = .selected startedAt payload →
      state.payload = some row →
      row.claimable setup.staleAfter setup.maxRetries startedAt = true →
      ∀ other lockedAt, (state.workers other).lock? = some lockedAt →
        lockedAt + setup.staleAfter ≤ state.clock
  | .markFailed _ => ∀ row, state.payload = some row → row.status ≠ .uploaded
  | _ => True

/-- No capture arrives while the row is uploaded, and a worker marks the row as
failed only while the row carries its own lock. -/
def isOrderly (state : State Worker) : Action Worker → Bool
  | .capture _ => state.payload.all fun row => row.status != .uploading
  | .markFailed worker =>
      state.payload.any fun row => (state.workers worker).lock?.any row.isLockedBy
  | _ => true

/-- The lock does not matter any more: the row is uploaded, or the lock is stale. -/
def Excused (state : State Worker) (lockedAt : Nat) : Prop :=
  (∃ row, state.payload = some row ∧ row.status = .uploaded) ∨
    lockedAt + setup.staleAfter < state.clock

/-- The row carries the lock. -/
def Locked (state : State Worker) (lockedAt : Nat) : Prop :=
  ∃ row, state.payload = some row ∧ row.isLockedBy lockedAt = true

/-- When the worker has computed its bound for stale locks. -/
def Progress.startedAt? : Progress → Option Nat
  | .scanning startedAt => some startedAt
  | .selected startedAt _ => some startedAt
  | _ => none

/-- A lock that a worker has not given back is the one of the row or does not
matter any more; a lock that matters has one holder. -/
structure Owned (state : State Worker) : Prop where
  locks : ∀ {worker lockedAt}, (state.workers worker).lock? = some lockedAt →
    Locked state lockedAt ∨ Excused setup state lockedAt
  holder : ∀ {worker other lockedAt}, (state.workers worker).lock? = some lockedAt →
    (state.workers other).lock? = some lockedAt → worker = other ∨ Excused setup state lockedAt
  started : ∀ {worker startedAt}, (state.workers worker).startedAt? = some startedAt →
    startedAt ≤ state.clock

variable {setup}

theorem owned_initial (clock : Nat) (payload : Option Row) (envelope : Option Envelope)
    (objects : String → Option String) :
    Owned setup (State.initial clock payload envelope objects : State Worker) where
  locks := nofun
  holder := nofun
  started := nofun

/-- A step that adds no lock. -/
theorem Owned.of_noClaim {old new : State Worker} (owned : Owned setup old)
    (locks : ∀ {worker lockedAt}, (new.workers worker).lock? = some lockedAt →
      (old.workers worker).lock? = some lockedAt)
    (kept : ∀ {worker lockedAt}, (new.workers worker).lock? = some lockedAt →
      Locked old lockedAt → Locked new lockedAt ∨ Excused setup new lockedAt)
    (excused : ∀ {lockedAt}, Excused setup old lockedAt → Excused setup new lockedAt)
    (started : ∀ {worker startedAt}, (new.workers worker).startedAt? = some startedAt →
      startedAt ≤ new.clock) : Owned setup new := by
  constructor
  · intro worker lockedAt held
    rcases owned.locks (locks held) with locked | excuse
    · exact kept held locked
    · exact Or.inr (excused excuse)
  · intro worker other lockedAt held held'
    rcases owned.holder (locks held) (locks held') with same | excuse
    · exact Or.inl same
    · exact Or.inr (excused excuse)
  · exact started

/-- A lock that a claim takes over is stale. -/
theorem stale_of_claimable {row : Row} {staleAfter maxRetries startedAt lockedAt : Nat}
    (claimable : row.claimable staleAfter maxRetries startedAt = true)
    (locked : row.isLockedBy lockedAt = true) : lockedAt + staleAfter < startedAt := by
  simp only [Row.isLockedBy, Bool.and_eq_true, beq_iff_eq] at locked
  simp only [Row.claimable, locked.1, locked.2, Bool.and_eq_true] at claimable
  simpa using claimable.2

theorem not_uploaded_of_claimable {row : Row} {staleAfter maxRetries startedAt : Nat}
    (claimable : row.claimable staleAfter maxRetries startedAt = true) :
    row.status ≠ .uploaded := by
  intro uploaded
  simp [Row.claimable, uploaded] at claimable

/-- A claim returns the row only if no lock that matters is on it. -/
theorem Owned.exclusive {state : State Worker} (owned : Owned setup state) {worker : Worker}
    {startedAt : Nat} {payload : ArchivePayload} {row : Row}
    (selected : state.workers worker = .selected startedAt payload)
    (found : state.payload = some row)
    (claimable : row.claimable setup.staleAfter setup.maxRetries startedAt = true)
    {other : Worker} {lockedAt : Nat} (held : (state.workers other).lock? = some lockedAt) :
    lockedAt + setup.staleAfter < state.clock := by
  rcases owned.locks held with ⟨row', found', locked⟩ | ⟨row', found', uploaded⟩ | stale
  · rw [found] at found'
    cases found'
    have begun : startedAt ≤ state.clock := owned.started (by rw [selected]; rfl)
    exact Nat.lt_of_lt_of_le (stale_of_claimable claimable locked) begun
  · rw [found] at found'
    cases found'
    exact absurd uploaded (not_uploaded_of_claimable claimable)
  · exact stale

/-- A capture does not touch the row while it is locked, nor an uploaded row. -/
theorem Owned.capture {state : State Worker} (owned : Owned setup state) {columns : Columns}
    (unlocked : ∀ row, state.payload = some row → row.status ≠ .uploading) :
    Owned setup { state with payload := some (writeCapture columns state.payload) } := by
  refine owned.of_noClaim id ?_ ?_ owned.started
  · rintro worker lockedAt - ⟨row, found, locked⟩
    simp only [Row.isLockedBy, Bool.and_eq_true, beq_iff_eq] at locked
    exact absurd locked.1 (unlocked row found)
  · rintro lockedAt (⟨row, found, uploaded⟩ | stale)
    · left
      refine ⟨_, rfl, ?_⟩
      simp [writeCapture, found, uploaded, ArchiveStatus.keepsPayload]
    · exact Or.inr stale

theorem Owned.markReady {state : State Worker} (owned : Owned setup state) :
    Owned setup { state with payload := state.payload.map markPayloadArchiveReady } := by
  have kept : ∀ row : Row, row.status.keepsPayload = true → markPayloadArchiveReady row = row :=
    fun row keeps => if_pos keeps
  refine owned.of_noClaim id ?_ ?_ owned.started
  · rintro worker lockedAt - ⟨row, found, locked⟩
    left
    refine ⟨row, ?_, locked⟩
    simp only [Row.isLockedBy, Bool.and_eq_true, beq_iff_eq] at locked
    change state.payload.map _ = _
    rw [found, Option.map_some, kept row (by rw [locked.1]; rfl)]
  · rintro lockedAt (⟨row, found, uploaded⟩ | stale)
    · left
      refine ⟨row, ?_, uploaded⟩
      change state.payload.map _ = _
      rw [found, Option.map_some, kept row (by rw [uploaded]; rfl)]
    · exact Or.inr stale

theorem Owned.setObjects {state : State Worker} (owned : Owned setup state)
    (objects : String → Option String) : Owned setup { state with objects := objects } :=
  owned.of_noClaim id (fun _ locked => Or.inl locked) id owned.started

section Steps

variable [DecidableEq Worker]

/-- Only the progress of one worker changes, and it takes no lock. -/
theorem Owned.setWorker {state : State Worker} (owned : Owned setup state) {worker : Worker}
    {progress : Progress}
    (lock : ∀ lockedAt, progress.lock? = some lockedAt →
      (state.workers worker).lock? = some lockedAt)
    (started : ∀ startedAt, progress.startedAt? = some startedAt → startedAt ≤ state.clock) :
    Owned setup (state.setWorker worker progress) := by
  refine owned.of_noClaim ?_ (fun _ locked => Or.inl locked) (fun excuse => excuse) ?_
  · intro other lockedAt held
    by_cases same : other = worker
    · subst same
      rw [State.setWorker_self] at held
      exact lock lockedAt held
    · rwa [State.setWorker_of_ne _ same] at held
  · intro other startedAt begun
    by_cases same : other = worker
    · subst same
      rw [State.setWorker_self] at begun
      exact started startedAt begun
    · rw [State.setWorker_of_ne _ same] at begun
      exact owned.started begun

/-- A claim. -/
theorem Owned.claim {state : State Worker} (owned : Owned setup state) {worker : Worker}
    {startedAt now : Nat} {payload : ArchivePayload} {row : Row} {progress : Progress}
    (selected : state.workers worker = .selected startedAt payload)
    (found : state.payload = some row)
    (claimable : row.claimable setup.staleAfter setup.maxRetries startedAt = true)
    (lock : progress.lock? = some now) (working : progress.startedAt? = none) :
    Owned setup ({ state with payload := some (row.claim now) }.setWorker worker progress) := by
  have others : ∀ {other lockedAt}, other ≠ worker →
      (({ state with payload := some (row.claim now) }.setWorker worker progress).workers
        other).lock? = some lockedAt → lockedAt + setup.staleAfter < state.clock := by
    intro other lockedAt ne held
    rw [State.setWorker_of_ne _ ne] at held
    exact owned.exclusive selected found claimable held
  have own : ∀ {lockedAt}, (({ state with payload := some (row.claim now) }.setWorker worker
      progress).workers worker).lock? = some lockedAt → lockedAt = now := by
    intro lockedAt held
    rw [State.setWorker_self, lock] at held
    exact (Option.some.inj held).symm
  constructor
  · intro other lockedAt held
    by_cases same : other = worker
    · subst same
      left
      refine ⟨row.claim now, rfl, ?_⟩
      rw [own held]
      simp [Row.isLockedBy, Row.claim]
    · exact Or.inr (Or.inr (others same held))
  · intro first second lockedAt held held'
    by_cases same : first = worker
    · by_cases same' : second = worker
      · exact Or.inl (same.trans same'.symm)
      · exact Or.inr (Or.inr (others same' held'))
    · exact Or.inr (Or.inr (others same held))
  · intro other startedAt' begun
    by_cases same : other = worker
    · subst same
      rw [State.setWorker_self, working] at begun
      cases begun
    · rw [State.setWorker_of_ne _ same] at begun
      exact owned.started begun

/-- The columns are erased. -/
theorem Owned.finalize {state : State Worker} (owned : Owned setup state) {worker : Worker}
    {manifest : Manifest} {envelope : Option Envelope} :
    Owned setup ({ state with
      payload := state.payload.map fun row : Row => row.finalize state.clock manifest
      envelope := envelope }.setWorker worker .idle) := by
  have uploaded : ∀ {row}, state.payload = some row → ∃ row',
      (state.payload.map fun row : Row => row.finalize state.clock manifest) = some row' ∧
        row'.status = .uploaded := by
    intro row found
    exact ⟨row.finalize state.clock manifest, by rw [found, Option.map_some], rfl⟩
  have erased : Owned setup { state with
      payload := state.payload.map fun row : Row => row.finalize state.clock manifest
      envelope := envelope } := by
    refine owned.of_noClaim id ?_ ?_ owned.started
    · rintro other lockedAt - ⟨row, found, _⟩
      exact Or.inr (Or.inl (uploaded found))
    · rintro lockedAt (⟨row, found, _⟩ | stale)
      · exact Or.inl (uploaded found)
      · exact Or.inr stale
  exact erased.setWorker nofun nofun

/-- The holder of the lock gives it back. -/
theorem Owned.markFailed {state : State Worker} (owned : Owned setup state) {worker : Worker}
    {row : Row} {lockedAt : Nat} (found : state.payload = some row)
    (held : (state.workers worker).lock? = some lockedAt) (locked : row.isLockedBy lockedAt = true)
    (change : Row → Row) :
    Owned setup ({ state with payload := state.payload.map change }.setWorker worker .idle) := by
  have uploading : row.status = .uploading := by
    simp only [Row.isLockedBy, Bool.and_eq_true, beq_iff_eq] at locked
    exact locked.1
  have stale : ∀ {moment}, Excused setup state moment → moment + setup.staleAfter < state.clock := by
    rintro moment (⟨row', found', uploaded⟩ | stale)
    · rw [found] at found'
      cases found'
      rw [uploading] at uploaded
      cases uploaded
    · exact stale
  constructor
  · intro other moment held'
    by_cases same : other = worker
    · subst same
      rw [State.setWorker_self] at held'
      cases held'
    · rw [State.setWorker_of_ne _ same] at held'
      right
      right
      rcases owned.locks held' with ⟨row', found', locked'⟩ | excuse
      · -- The row has one lock, and a lock that matters has one holder.
        rw [found] at found'
        cases found'
        simp only [Row.isLockedBy, Bool.and_eq_true, beq_iff_eq] at locked locked'
        have moment_eq : moment = lockedAt :=
          Option.some.inj (locked'.2.symm.trans locked.2)
        subst moment_eq
        rcases owned.holder held' held with eq | excuse
        · exact absurd eq same
        · exact stale excuse
      · exact stale excuse
  · intro first second moment held₁ held₂
    by_cases same : first = worker
    · subst same
      rw [State.setWorker_self] at held₁
      cases held₁
    · by_cases same' : second = worker
      · subst same'
        rw [State.setWorker_self] at held₂
        cases held₂
      · rw [State.setWorker_of_ne _ same] at held₁
        rw [State.setWorker_of_ne _ same'] at held₂
        rcases owned.holder held₁ held₂ with eq | excuse
        · exact Or.inl eq
        · exact Or.inr (Or.inr (stale excuse))
  · intro other startedAt begun
    by_cases same : other = worker
    · subst same
      rw [State.setWorker_self] at begun
      cases begun
    · rw [State.setWorker_of_ne _ same] at begun
      exact owned.started begun

variable [FloatText]

theorem owned_step {state next : State Worker} {action : Action Worker}
    (owned : Owned setup state) (orderly : isOrderly state action = true)
    (taken : step setup state action = some next) : Owned setup next := by
  cases action with
  | tick elapsed =>
      cases taken
      refine owned.of_noClaim id (fun _ locked => Or.inl locked) ?_ ?_
      · rintro lockedAt (uploaded | stale)
        · exact Or.inl uploaded
        · exact Or.inr (Nat.lt_add_right elapsed stale)
      · intro worker startedAt begun
        exact Nat.le_add_right_of_le (owned.started begun)
  | capture columns =>
      cases taken
      apply owned.capture
      intro row found
      simpa [isOrderly, found] using orderly
  | markReady =>
      cases taken
      exact owned.markReady
  | begin worker =>
      simp only [step] at taken
      split at taken
      · cases taken
        refine owned.setWorker nofun ?_
        intro startedAt begun
        cases begun
        exact Nat.le_refl _
      · cases taken
  | overlook worker =>
      simp only [step] at taken
      split at taken
      · cases taken
        exact owned.setWorker nofun nofun
      · cases taken
  | select worker =>
      simp only [step] at taken
      split at taken
      · rename_i startedAt row envelope scanning _ _
        split at taken
        · cases taken
          refine owned.setWorker nofun ?_
          intro startedAt' begun
          cases begun
          exact owned.started (by rw [scanning]; rfl)
        · cases taken
      · cases taken
  | claim worker now =>
      simp only [step] at taken
      split at taken
      · rename_i startedAt payload selected
        split at taken
        · split at taken
          · rename_i row found
            split at taken
            · rename_i claimable
              cases taken
              exact owned.claim selected found claimable rfl rfl
            · cases taken
              exact owned.setWorker nofun nofun
          · cases taken
            exact owned.setWorker nofun nofun
        · cases taken
      · cases taken
  | put worker =>
      simp only [step] at taken
      split at taken
      · rename_i lockedAt payload manifest kind content remaining uploading
        cases taken
        refine (owned.setObjects _).setWorker ?_ nofun
        intro moment held
        change (state.workers worker).lock? = some moment
        rw [uploading]
        exact held
      · cases taken
  | putFails worker error stored =>
      simp only [step] at taken
      split at taken
      · rename_i lockedAt payload manifest kind content remaining uploading
        cases taken
        refine (owned.setObjects _).setWorker ?_ nofun
        intro moment held
        change (state.workers worker).lock? = some moment
        rw [uploading]
        exact held
      · cases taken
  | finalize worker =>
      simp only [step] at taken
      split at taken
      · cases taken
        exact owned.finalize
      · cases taken
  | readAttempts worker =>
      simp only [step] at taken
      split at taken
      · rename_i lockedAt error failing
        cases taken
        refine owned.setWorker ?_ nofun
        intro moment held
        rw [failing]
        exact held
      · cases taken
  | markFailed worker =>
      simp only [step] at taken
      split at taken
      · simp only [isOrderly, Option.any_eq_true] at orderly
        rcases orderly with ⟨row, found, lockedAt, held, locked⟩
        cases taken
        exact owned.markFailed found held locked _
      · cases taken

/-- In a run whose captures and failures are orderly, claims are exclusive and
an uploaded row stays uploaded. -/
theorem exclusive_of_orderly (setup : Setup Worker) (clock : Nat) (payload : Option Row)
    (envelope : Option Envelope) (objects : String → Option String)
    {actions : List (Action Worker)}
    (orderly : Along (step setup) (isOrderly · · = true)
      (State.initial clock payload envelope objects) actions) :
    Along (step setup) (Exclusive setup) (State.initial clock payload envelope objects) actions := by
  refine along_of_invariant owned_step ?_ (owned_initial clock payload envelope objects) orderly
  intro state action owned orderly
  cases action with
  | claim worker now =>
      intro startedAt payload row selected found claimable other lockedAt held
      exact Nat.le_of_lt (owned.exclusive selected found claimable held)
  | markFailed worker =>
      intro row found uploaded
      simp only [isOrderly, Option.any_eq_true] at orderly
      rcases orderly with ⟨row', found', lockedAt, _, locked⟩
      rw [found] at found'
      cases found'
      simp [Row.isLockedBy, uploaded] at locked
  | _ => trivial

end Steps

end Claims

/-! ## Runs of two workers -/

/-- The columns of a captured exchange. -/
def sampleColumns (body : String) : Columns :=
  ⟨some "POST", some "/v1/chat/completions", some "null", some body, some 200, some "null",
    some "pong", some "null", some "pong", none, none⟩

def sampleRow (body : String) : Row :=
  writeCapture (sampleColumns body) none

def sampleEnvelope : Envelope :=
  ⟨some "null", some "null"⟩

/-- Two workers; a lock is stale after a minute. -/
def sampleSetup : Setup Bool :=
  ⟨"r", fun _ => "payloads", 60, 5⟩

def sampleStart : State Bool :=
  .initial 100 (some (sampleRow "ping")) (some sampleEnvelope) fun _ => none

/-- A worker selects and claims the row. -/
def claiming (worker : Bool) (now : Nat) : List (Action Bool) :=
  [.begin worker, .select worker, .claim worker now]

/-- A worker uploads all objects. -/
def uploading (worker : Bool) : List (Action Bool) :=
  List.replicate 8 (.put worker)

/-- One worker archives the payload, the other one finds nothing to do. -/
theorem exclusive_oneWorker :
    Along (@step Bool _ FloatText.integersOnly sampleSetup) (Exclusive sampleSetup) sampleStart
      (claiming false 100 ++ uploading false ++ [.finalize false, .begin true, .overlook true]) :=
  @exclusive_of_orderly Bool _ FloatText.integersOnly sampleSetup _ _ _ _ _ (by decide +kernel)

/-- A capture arrives while the first worker uploads, and the second one claims
the row at the same moment; or the first worker is slow, the second one takes
the row over and archives it, and then the upload of the first one fails. -/
theorem not_exclusive_disorderly :
    ¬ Along (@step Bool _ FloatText.integersOnly sampleSetup) (Exclusive sampleSetup) sampleStart
      (claiming false 100 ++ [.capture (sampleColumns "again")] ++ claiming true 100) ∧
    ¬ Along (@step Bool _ FloatText.integersOnly sampleSetup) (Exclusive sampleSetup) sampleStart
      (claiming false 100 ++ [.tick 100] ++ claiming true 200 ++ uploading true ++
        [.finalize true, .putFails false "timeout" false, .readAttempts false,
          .markFailed false]) := by
  constructor
  · intro exclusive
    have ran : run (@step Bool _ FloatText.integersOnly sampleSetup) sampleStart
        (claiming false 100 ++ [.capture (sampleColumns "again"), .begin true, .select true]) =
        some _ := rfl
    have last := (along_append ran exclusive).2.1
    have stale := last 100 _ _ rfl rfl (by decide +kernel) false 100 rfl
    exact absurd stale (by decide)
  · intro exclusive
    have ran : run (@step Bool _ FloatText.integersOnly sampleSetup) sampleStart
        (claiming false 100 ++ [.tick 100] ++ claiming true 200 ++ uploading true ++
          [.finalize true, .putFails false "timeout" false, .readAttempts false]) = some _ := rfl
    have last := (along_append ran exclusive).2.1
    exact last _ rfl rfl

end TiyGate.Store.Archive
