import TiyGate.Store.ArchiveClaims

/-!
# What an archived payload contains

A worker uploads the columns as its `SELECT` has read them.  They are the ones
that it erases unless a capture has replaced them in between.
-/

namespace TiyGate.Store.Archive

open Runs
open Json (FloatText)
open Text (splitLines)

/-! ## Keys and kinds -/

/-- The last part of a key. -/
def ArchiveObjectKind.file (kind : ArchiveObjectKind) : String :=
  kind.asStr ++ "." ++ kind.extension

theorem ArchiveObjectKind.file_injective : Function.Injective ArchiveObjectKind.file := by
  intro kind other
  cases kind <;> cases other <;> decide +kernel

theorem exists_objectKey_eq (root requestId : String) (kind : ArchiveObjectKind) :
    ∃ front : String, objectKey root requestId kind = front ++ "/" ++ kind.file := by
  unfold objectKey
  simp only
  split_ifs
  · exact ⟨trimSlashes requestId, by simp [ArchiveObjectKind.file, String.append_assoc]⟩
  · refine ⟨normalizePrefix root ++ "/" ++ trimSlashes requestId, ?_⟩
    simp [ArchiveObjectKind.file, String.append_assoc]

/-- A key tells the kind of its object. -/
theorem objectKey_kind {root root' requestId requestId' : String} {kind kind' : ArchiveObjectKind}
    (same : objectKey root requestId kind = objectKey root' requestId' kind') : kind = kind' := by
  have last : ∀ (front : String) (kind : ArchiveObjectKind),
      (splitLines '/' (front ++ "/" ++ kind.file).toList).2 = kind.file.toList := by
    intro front kind
    have plain : splitLines '/' kind.file.toList = ([], kind.file.toList) := by
      cases kind <;> decide +kernel
    have slash : (front ++ "/").toList = front.toList ++ ['/'] := String.toList_append
    rw [String.toList_append, Text.splitLines_append, slash, Text.splitLines_concat_snd,
      List.nil_append, plain]
  rcases exists_objectKey_eq root requestId kind with ⟨front, key⟩
  rcases exists_objectKey_eq root' requestId' kind' with ⟨front', key'⟩
  apply ArchiveObjectKind.file_injective
  apply String.toList_injective
  rw [← last front kind, ← last front' kind', ← key, ← key', same]

/-- A payload has one object of each kind. -/
theorem ArchivePayload.objects_unique {payload : ArchivePayload} {kind : ArchiveObjectKind}
    {content other : String} (first : (kind, content) ∈ payload.objects)
    (second : (kind, other) ∈ payload.objects) : content = other := by
  simp only [ArchivePayload.objects, List.mem_filterMap, Option.map_eq_some_iff] at first second
  rcases first with ⟨⟨kind₁, value₁⟩, mem₁, text₁, found₁, eq₁⟩
  rcases second with ⟨⟨kind₂, value₂⟩, mem₂, text₂, found₂, eq₂⟩
  cases eq₁
  cases eq₂
  have same : value₁ = value₂ := by
    cases kind₁ <;> simp_all
  rw [← Option.some_inj, ← found₁, ← found₂]
  exact same

/-! ## The columns and their copies -/

/-- The payload that a worker has read and still works on. -/
def Progress.payload? : Progress → Option ArchivePayload
  | .selected _ payload => some payload
  | .uploading _ payload _ _ => some payload
  | _ => none

section Contents

variable {Worker : Type*}

/-- The columns of `request_logs`; without a row there is nothing to erase. -/
def State.envelopeColumns (state : State Worker) : Envelope :=
  state.envelope.getD ⟨none, none⟩

/-- There is nothing left to erase. -/
def IsErased (state : State Worker) (row : Row) : Prop :=
  row.columns.erase = row.columns ∧ state.envelopeColumns = ⟨none, none⟩

/-- No capture changes the columns that a worker has read and works on. -/
def Unread (state : State Worker) : Action Worker → Prop
  | .capture columns =>
      (∀ worker, (state.workers worker).payload?.isNone = true) ∨
        (state.payload.any fun row =>
          decide ((writeCapture columns (some row)).columns = row.columns)) = true
  | _ => True

variable [FloatText]

/-- When a worker erases columns, the objects in its manifest have what the
columns had. -/
def Kept (state : State Worker) : Action Worker → Prop
  | .finalize worker => ∀ lockedAt payload manifest row,
      state.workers worker = .uploading lockedAt payload manifest [] →
      state.payload = some row → ¬ IsErased state row →
      ∀ kind content,
        (kind, content) ∈ (ArchivePayload.ofColumns row.columns state.envelopeColumns).objects →
        ∃ key, (kind, key) ∈ manifest ∧ state.objects key = some content
  | _ => True

/-- The objects that a worker has uploaded so far. -/
structure Uploaded (setup : Setup Worker) (state : State Worker) (worker : Worker)
    (payload : ArchivePayload) (manifest : Manifest)
    (remaining : List (ArchiveObjectKind × String)) : Prop where
  objects : ∀ object ∈ payload.objects, object ∈ remaining ∨
    (object.1, objectKey (setup.root worker) setup.requestId object.1) ∈ manifest ∧
      state.objects (objectKey (setup.root worker) setup.requestId object.1) = some object.2
  remaining : ∀ object ∈ remaining, object ∈ payload.objects

/-- All workers work on the same payload, the one of the columns unless they
are erased. -/
structure Shared (setup : Setup Worker) (state : State Worker) : Prop where
  read : ∀ {worker payload}, (state.workers worker).payload? = some payload →
    ∃ row, state.payload = some row ∧
      (payload = ArchivePayload.ofColumns row.columns state.envelopeColumns ∨ IsErased state row)
  same : ∀ {worker other payload payload'}, (state.workers worker).payload? = some payload →
    (state.workers other).payload? = some payload' → payload = payload'
  uploaded : ∀ {worker lockedAt payload manifest remaining},
    state.workers worker = .uploading lockedAt payload manifest remaining →
    Uploaded setup state worker payload manifest remaining

variable {setup : Setup Worker}

theorem shared_initial (clock : Nat) (payload : Option Row) (envelope : Option Envelope)
    (objects : String → Option String) :
    Shared setup (State.initial clock payload envelope objects : State Worker) where
  read := nofun
  same := nofun
  uploaded := nofun

omit [FloatText] in
theorem Uploaded.of_objects {old new : State Worker} {worker : Worker} {payload : ArchivePayload}
    {manifest : Manifest} {remaining : List (ArchiveObjectKind × String)}
    (uploaded : Uploaded setup old worker payload manifest remaining)
    (objects : new.objects = old.objects) :
    Uploaded setup new worker payload manifest remaining := by
  constructor
  · rw [objects]
    exact uploaded.objects
  · exact uploaded.remaining

omit [FloatText] in
/-- Another copy of the same payload changes nothing. -/
theorem Uploaded.store {old new : State Worker} {worker : Worker} {payload : ArchivePayload}
    {manifest : Manifest} {remaining : List (ArchiveObjectKind × String)}
    (uploaded : Uploaded setup old worker payload manifest remaining) {root key content : String}
    {kind : ArchiveObjectKind} (mem : (kind, content) ∈ payload.objects)
    (key_eq : key = objectKey root setup.requestId kind)
    (objects : new.objects = Function.update old.objects key (some content)) :
    Uploaded setup new worker payload manifest remaining := by
  refine ⟨?_, uploaded.remaining⟩
  intro object inside
  rcases uploaded.objects object inside with left | ⟨listed, stored⟩
  · exact Or.inl left
  · refine Or.inr ⟨listed, ?_⟩
    rw [objects]
    by_cases same : objectKey (setup.root worker) setup.requestId object.1 = key
    · have kind_eq : object.1 = kind := objectKey_kind (same.trans key_eq)
      rw [same, Function.update_self, Option.some_inj]
      exact ArchivePayload.objects_unique mem (kind_eq ▸ inside)
    · rwa [Function.update_of_ne same]

omit [FloatText] in
theorem complete_eq_false_of_isErased {state : State Worker} {row : Row}
    (erased : IsErased state row) (envelope : Envelope) : complete row.columns envelope = false := by
  have body : row.columns.egressBody = none := by
    rw [← erased.1]
    rfl
  simp [complete, body]

/-- A step that keeps or erases the columns. -/
theorem Shared.of_columns {old new : State Worker} (shared : Shared setup old)
    (workers : ∀ {worker payload}, (new.workers worker).payload? = some payload →
      (old.workers worker).payload? = some payload)
    (columns : ∀ {row}, old.payload = some row → ∃ row', new.payload = some row' ∧
      (row'.columns = row.columns ∧ new.envelopeColumns = old.envelopeColumns ∨
        IsErased new row'))
    (uploaded : ∀ {worker lockedAt payload manifest remaining},
      new.workers worker = .uploading lockedAt payload manifest remaining →
      Uploaded setup new worker payload manifest remaining) : Shared setup new := by
  constructor
  · intro worker payload held
    rcases shared.read (workers held) with ⟨row, found, copy⟩
    rcases columns found with ⟨row', found', ⟨kept, envelope⟩ | erased⟩
    · refine ⟨row', found', ?_⟩
      rcases copy with copy | erased
      · left
        rw [kept, envelope]
        exact copy
      · right
        rw [IsErased, kept, envelope]
        exact erased
    · exact ⟨row', found', Or.inr erased⟩
  · intro worker other payload payload' held held'
    exact shared.same (workers held) (workers held')
  · exact uploaded

section Steps

variable [DecidableEq Worker]

/-- Only the progress of one worker changes, and it reads nothing. -/
theorem Shared.setWorker {state : State Worker} (shared : Shared setup state) {worker : Worker}
    {progress : Progress}
    (payload : ∀ payload, progress.payload? = some payload →
      (state.workers worker).payload? = some payload)
    (uploaded : ∀ lockedAt payload manifest remaining,
      progress = .uploading lockedAt payload manifest remaining →
      Uploaded setup state worker payload manifest remaining) :
    Shared setup (state.setWorker worker progress) := by
  refine shared.of_columns ?_ (fun found => ⟨_, found, Or.inl ⟨rfl, rfl⟩⟩) ?_
  · intro other text held
    by_cases same : other = worker
    · subst same
      rw [State.setWorker_self] at held
      exact payload text held
    · rwa [State.setWorker_of_ne _ same] at held
  · intro other lockedAt text manifest remaining working
    by_cases same : other = worker
    · subst same
      rw [State.setWorker_self] at working
      exact (uploaded _ _ _ _ working).of_objects rfl
    · rw [State.setWorker_of_ne _ same] at working
      exact (shared.uploaded working).of_objects rfl

/-- A worker that works on no payload. -/
theorem Shared.leave {state : State Worker} (shared : Shared setup state) {worker : Worker}
    {progress : Progress} (free : progress.payload? = none) :
    Shared setup (state.setWorker worker progress) := by
  apply shared.setWorker
  · intro payload held
    rw [free] at held
    cases held
  · intro lockedAt payload manifest remaining working
    rw [working] at free
    cases free

end Steps

/-- The row changes, but not its columns. -/
theorem Shared.mapRow {state : State Worker} (shared : Shared setup state) (change : Row → Row)
    (columns : ∀ row, (change row).columns = row.columns) :
    Shared setup { state with payload := state.payload.map change } := by
  refine shared.of_columns id ?_ fun working => (shared.uploaded working).of_objects rfl
  intro row found
  refine ⟨change row, ?_, Or.inl ⟨columns row, rfl⟩⟩
  change state.payload.map change = _
  rw [found, Option.map_some]

theorem Shared.capture {state : State Worker} (shared : Shared setup state) {columns : Columns}
    (unread : Unread state (.capture columns)) :
    Shared setup { state with payload := some (writeCapture columns state.payload) } := by
  rcases unread with nobody | unchanged
  · have none_reads : ∀ {worker payload}, (state.workers worker).payload? ≠ some payload := by
      intro worker payload held
      have absent := nobody worker
      rw [held] at absent
      cases absent
    refine ⟨fun held => absurd held none_reads, fun held => absurd held none_reads, ?_⟩
    intro worker lockedAt payload manifest remaining working
    have held : (state.workers worker).payload? = some payload := by
      change state.workers worker = _ at working
      rw [working]
      rfl
    exact absurd held none_reads
  · simp only [Option.any_eq_true, decide_eq_true_eq] at unchanged
    rcases unchanged with ⟨row, found, same⟩
    refine shared.of_columns id ?_ fun working => (shared.uploaded working).of_objects rfl
    intro row' found'
    rw [found] at found'
    cases found'
    refine ⟨_, rfl, Or.inl ⟨?_, rfl⟩⟩
    rw [found]
    exact same

/-- A worker stores an object of the payload that all of them work on. -/
theorem Shared.store {state : State Worker} (shared : Shared setup state) {worker : Worker}
    {payload : ArchivePayload} (held : (state.workers worker).payload? = some payload)
    {root key content : String} {kind : ArchiveObjectKind}
    (mem : (kind, content) ∈ payload.objects)
    (key_eq : key = objectKey root setup.requestId kind) :
    Shared setup { state with objects := Function.update state.objects key (some content) } := by
  refine shared.of_columns id ?_ ?_
  · intro row found
    exact ⟨row, found, Or.inl ⟨rfl, rfl⟩⟩
  · intro other lockedAt payload' manifest remaining working
    have working' : state.workers other = .uploading lockedAt payload' manifest remaining := working
    have held' : (state.workers other).payload? = some payload' := by
      rw [working']
      rfl
    have inside : (kind, content) ∈ payload'.objects := shared.same held held' ▸ mem
    exact (shared.uploaded working').store inside key_eq rfl

section Steps

variable [DecidableEq Worker]

theorem Shared.select {state : State Worker} (shared : Shared setup state) {worker : Worker}
    {startedAt : Nat} {row : Row} {envelope : Envelope} (found : state.payload = some row)
    (logged : state.envelope = some envelope) (whole : complete row.columns envelope = true) :
    Shared setup (state.setWorker worker
      (.selected startedAt (.ofColumns row.columns envelope))) := by
  have columns : state.envelopeColumns = envelope := by rw [State.envelopeColumns, logged]; rfl
  -- The columns are there, so every other worker has read the same.
  have others : ∀ {other payload}, (state.workers other).payload? = some payload →
      payload = ArchivePayload.ofColumns row.columns envelope := by
    intro other payload held
    rcases shared.read held with ⟨row', found', copy | erased⟩
    · rw [found] at found'
      cases found'
      rw [copy, columns]
    · rw [found] at found'
      cases found'
      rw [complete_eq_false_of_isErased erased] at whole
      cases whole
  have all : ∀ {other payload}, ((state.setWorker worker
      (.selected startedAt (.ofColumns row.columns envelope))).workers other).payload? =
        some payload → payload = ArchivePayload.ofColumns row.columns envelope := by
    intro other payload held
    by_cases same : other = worker
    · subst same
      rw [State.setWorker_self] at held
      exact (Option.some.inj held).symm
    · rw [State.setWorker_of_ne _ same] at held
      exact others held
  constructor
  · intro other payload held
    refine ⟨row, found, Or.inl ?_⟩
    rw [all held]
    exact congrArg (ArchivePayload.ofColumns row.columns) columns.symm
  · intro first second payload payload' held held'
    rw [all held, all held']
  · intro other lockedAt payload manifest remaining working
    by_cases same : other = worker
    · subst same
      rw [State.setWorker_self] at working
      cases working
    · rw [State.setWorker_of_ne _ same] at working
      exact (shared.uploaded working).of_objects rfl

theorem Shared.finalize {state : State Worker} (shared : Shared setup state) {worker : Worker}
    {manifest : Manifest} :
    Shared setup ({ state with
      payload := state.payload.map fun row : Row => row.finalize state.clock manifest
      envelope := state.envelope.map fun _ => ⟨none, none⟩ }.setWorker worker .idle) := by
  have erased : Shared setup { state with
      payload := state.payload.map fun row : Row => row.finalize state.clock manifest
      envelope := state.envelope.map fun _ => ⟨none, none⟩ } := by
    refine shared.of_columns id ?_ fun working => (shared.uploaded working).of_objects rfl
    intro row found
    refine ⟨row.finalize state.clock manifest, ?_, Or.inr ⟨rfl, ?_⟩⟩
    · change state.payload.map _ = _
      rw [found, Option.map_some]
    · change (state.envelope.map _).getD _ = _
      cases state.envelope <;> rfl
  exact erased.leave rfl

theorem Shared.put {state : State Worker} (shared : Shared setup state) {worker : Worker}
    {lockedAt : Nat} {payload : ArchivePayload} {manifest : Manifest} {kind : ArchiveObjectKind}
    {content key : String} {remaining : List (ArchiveObjectKind × String)}
    (working : state.workers worker =
      .uploading lockedAt payload manifest ((kind, content) :: remaining))
    (key_eq : key = objectKey (setup.root worker) setup.requestId kind) :
    Shared setup ({ state with
      objects := Function.update state.objects key (some content) }.setWorker worker
        (.uploading lockedAt payload (manifest ++ [(kind, key)]) remaining)) := by
  have uploaded := shared.uploaded working
  have held : (state.workers worker).payload? = some payload := by
    rw [working]
    rfl
  have mem := uploaded.remaining _ List.mem_cons_self
  have stored : Uploaded setup { state with
      objects := Function.update state.objects key (some content) } worker payload
      manifest ((kind, content) :: remaining) := uploaded.store mem key_eq rfl
  refine (shared.store held mem key_eq).setWorker ?_ ?_
  · intro other eq
    cases eq
    exact held
  · intro lockedAt' payload' manifest' remaining' eq
    cases eq
    refine ⟨?_, fun object inside => uploaded.remaining object (List.mem_cons_of_mem _ inside)⟩
    intro object inside
    rcases stored.objects object inside with left | ⟨listed, found⟩
    · rcases List.mem_cons.mp left with rfl | left
      · right
        rw [← key_eq]
        exact ⟨List.mem_append_right _ List.mem_cons_self, Function.update_self _ _ _⟩
      · exact Or.inl left
    · exact Or.inr ⟨List.mem_append_left _ listed, found⟩

theorem Shared.putFails {state : State Worker} (shared : Shared setup state) {worker : Worker}
    {lockedAt : Nat} {payload : ArchivePayload} {manifest : Manifest} {kind : ArchiveObjectKind}
    {content key error : String} {remaining : List (ArchiveObjectKind × String)} {stored : Bool}
    (working : state.workers worker =
      .uploading lockedAt payload manifest ((kind, content) :: remaining))
    (key_eq : key = objectKey (setup.root worker) setup.requestId kind) :
    Shared setup ({ state with
      objects := if stored then Function.update state.objects key (some content)
        else state.objects }.setWorker worker (.failing lockedAt error)) := by
  have held : (state.workers worker).payload? = some payload := by
    rw [working]
    rfl
  have mem := (shared.uploaded working).remaining _ List.mem_cons_self
  have either : Shared setup { state with
      objects := if stored then Function.update state.objects key (some content)
        else state.objects } := by
    split_ifs
    · exact shared.store held mem key_eq
    · exact shared
  exact either.leave rfl

theorem shared_step {state next : State Worker} {action : Action Worker}
    (shared : Shared setup state) (unread : Unread state action)
    (taken : step setup state action = some next) : Shared setup next := by
  cases action with
  | tick elapsed =>
      cases taken
      exact shared.of_columns id (fun found => ⟨_, found, Or.inl ⟨rfl, rfl⟩⟩) fun working =>
        (shared.uploaded working).of_objects rfl
  | capture columns =>
      cases taken
      exact shared.capture unread
  | markReady =>
      cases taken
      apply shared.mapRow markPayloadArchiveReady
      intro row
      unfold markPayloadArchiveReady
      split_ifs <;> rfl
  | begin worker =>
      simp only [step] at taken
      split at taken
      · cases taken
        exact shared.leave rfl
      · cases taken
  | overlook worker =>
      simp only [step] at taken
      split at taken
      · cases taken
        exact shared.leave rfl
      · cases taken
  | select worker =>
      simp only [step] at taken
      split at taken
      · rename_i startedAt row envelope _ found logged
        split at taken
        · rename_i eligible
          cases taken
          rw [Bool.and_eq_true] at eligible
          exact shared.select found logged eligible.2
        · cases taken
      · cases taken
  | claim worker now =>
      simp only [step] at taken
      split at taken
      · rename_i startedAt payload selected
        split at taken
        · split at taken
          · rename_i row found
            split at taken
            · cases taken
              have claimed : Shared setup { state with payload := some (row.claim now) } := by
                have mapped := shared.mapRow (fun row => row.claim now) fun _ => rfl
                rwa [found] at mapped
              refine claimed.setWorker ?_ ?_
              · intro other held
                change (state.workers worker).payload? = some other
                rw [selected]
                exact held
              · intro lockedAt payload' manifest remaining working
                cases working
                exact ⟨fun object mem => Or.inl mem, fun object mem => mem⟩
            · cases taken
              exact shared.leave rfl
          · cases taken
            exact shared.leave rfl
        · cases taken
      · cases taken
  | put worker =>
      simp only [step] at taken
      split at taken
      · rename_i lockedAt payload manifest kind content remaining working
        cases taken
        exact shared.put working rfl
      · cases taken
  | putFails worker error stored =>
      simp only [step] at taken
      split at taken
      · rename_i lockedAt payload manifest kind content remaining working
        cases taken
        exact shared.putFails working rfl
      · cases taken
  | finalize worker =>
      simp only [step] at taken
      split at taken
      · cases taken
        exact shared.finalize
      · cases taken
  | readAttempts worker =>
      simp only [step] at taken
      split at taken
      · cases taken
        exact shared.leave rfl
      · cases taken
  | markFailed worker =>
      simp only [step] at taken
      split at taken
      · rename_i lockedAt error attempts _
        cases taken
        have marked := shared.mapRow (fun row => row.markFailed setup.maxRetries attempts error)
          fun _ => rfl
        exact marked.leave rfl
      · cases taken

/-- In a run in which no capture replaces columns that a worker has read and
works on, nothing is erased that the archive does not have. -/
theorem kept_of_unread (setup : Setup Worker) (clock : Nat) (payload : Option Row)
    (envelope : Option Envelope) (objects : String → Option String)
    {actions : List (Action Worker)}
    (unread : Along (step setup) Unread (State.initial clock payload envelope objects) actions) :
    Along (step setup) Kept (State.initial clock payload envelope objects) actions := by
  refine along_of_invariant shared_step ?_ (shared_initial clock payload envelope objects) unread
  intro state action shared _
  cases action with
  | finalize worker =>
      intro lockedAt payload manifest row working found present kind content mem
      have held : (state.workers worker).payload? = some payload := by rw [working]; rfl
      have copy : payload = ArchivePayload.ofColumns row.columns state.envelopeColumns := by
        rcases shared.read held with ⟨row', found', copy | erased⟩
        · rw [found] at found'
          cases found'
          exact copy
        · rw [found] at found'
          cases found'
          exact absurd erased present
      rw [← copy] at mem
      rcases (shared.uploaded working).objects _ mem with left | ⟨listed, stored⟩
      · cases left
      · exact ⟨_, listed, stored⟩
  | _ => trivial

end Steps

end Contents

instance decidableUnread (state : State Bool) (action : Action Bool) :
    Decidable (Unread state action) := by
  cases action <;> unfold Unread <;> infer_instance

/-- A capture, and then a worker archives the payload. -/
theorem kept_oneWorker :
    Along (@step Bool _ FloatText.integersOnly sampleSetup)
      (@Kept Bool FloatText.integersOnly) sampleStart
      ([.capture (sampleColumns "again"), .markReady] ++ claiming false 100 ++ uploading false ++
        [.finalize false]) :=
  @kept_of_unread Bool FloatText.integersOnly _ sampleSetup _ _ _ _ _ (by decide +kernel)

/-- An archived object is found by going through the manifest. -/
theorem any_of_archived {manifest : Manifest} {objects : String → Option String}
    {kind : ArchiveObjectKind} {content : String}
    (archived : ∃ key, (kind, key) ∈ manifest ∧ objects key = some content) :
    (manifest.any fun entry => entry.1 == kind && objects entry.2 == some content) = true := by
  rcases archived with ⟨key, listed, stored⟩
  exact List.any_eq_true.mpr ⟨_, listed, by simp [stored]⟩

/-- A capture replaces the columns between the `SELECT` and the `UPDATE` of a claim. -/
theorem not_kept_replaced :
    ¬ Along (@step Bool _ FloatText.integersOnly sampleSetup)
      (@Kept Bool FloatText.integersOnly) sampleStart
      ([.begin false, .select false, .capture (sampleColumns "again"), .claim false 100] ++
        uploading false ++ [.finalize false]) := by
  intro kept
  have ran : run (@step Bool _ FloatText.integersOnly sampleSetup) sampleStart
      ([.begin false, .select false, .capture (sampleColumns "again"), .claim false 100] ++
        uploading false) = some _ := rfl
  have last := (along_append ran kept).2.1
  have present := last 100 _ _ _ rfl rfl (fun erased => by cases erased.1) .gpReqRaw "again"
    (by decide +kernel)
  exact absurd (any_of_archived present) (by decide +kernel)

end TiyGate.Store.Archive
