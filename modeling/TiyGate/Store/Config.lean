import Mathlib.Logic.Function.Basic
import TiyGate.Data.Runs

/-!
# The configuration store

The providers and routes are rows of a shared database.  Each process keeps a
snapshot of them that it renews with `refresh`: after every admin operation,
and when its poll of the epoch sees a new value.  A refresh is several
statements, and those of different tasks and processes mix in any order.

The database is kept as the list of the committed changes, so that a snapshot
can be compared with the moments at which its rows were read.  Decryption of
the credentials is a function of the row and is left out.
-/

namespace TiyGate.Store

/-- The rows of a table by their id. -/
abbrev Table (Row : Type*) := String → Option Row

/-- Write and delete (`none`) rows. -/
def Table.write {Row : Type*} (table : Table Row) (rows : List (String × Option Row)) :
    Table Row :=
  rows.foldl (fun table row => Function.update table row.1 row.2) table

/-- What one transaction of an admin operation writes: an upsert or a deletion
of one row, a deletion with the routes it takes along, or an import. -/
structure Change (Provider Route : Type*) where
  providers : List (String × Option Provider)
  routes : List (String × Option Route)

/-- The tables and the row of `config_epoch` (0 as long as there is none). -/
structure Database (Provider Route : Type*) where
  commits : List (Change Provider Route)
  epoch : Nat

section Tables

variable {Provider Route : Type*}

def providersOf (commits : List (Change Provider Route)) : Table Provider :=
  commits.foldl (fun table change => table.write change.providers) fun _ => none

def routesOf (commits : List (Change Provider Route)) : Table Route :=
  commits.foldl (fun table change => table.write change.routes) fun _ => none

namespace Database

def commit (db : Database Provider Route) (change : Change Provider Route) :
    Database Provider Route :=
  { db with commits := db.commits ++ [change] }

/-- The upsert of `bump_epoch`; the new value is read by a statement of its own. -/
def bumpEpoch (db : Database Provider Route) : Database Provider Route :=
  { db with epoch := db.epoch + 1 }

end Database

end Tables

/-- The rows of a `SELECT`, with the number of commits it has seen. -/
structure Load (Row : Type*) where
  rows : Table Row
  moment : Nat

/-- The snapshot a refresh publishes. -/
structure ConfigSnapshot (Provider Route : Type*) where
  epoch : Nat
  providers : Load Provider
  routes : Load Route

/-- The statements of `refresh`.  `since` counts the snapshots that the process
had published when the refresh made its first read. -/
inductive Refresh (Provider Route : Type*)
  | begun
  | providersLoaded (since : Nat) (providers : Load Provider)
  | routesLoaded (since : Nat) (providers : Load Provider) (routes : Load Route)
  | epochBumped (since : Nat) (providers : Load Provider) (routes : Load Route)
  | epochRead (since : Nat) (snapshot : ConfigSnapshot Provider Route)

/-- The next statement of a refresh, or the snapshot it has to store. -/
inductive Refresh.Outcome (Provider Route : Type*)
  | continues (db : Database Provider Route) (refresh : Refresh Provider Route)
  | publishes (snapshot : ConfigSnapshot Provider Route)

namespace Refresh

variable {Provider Route : Type*}

def advance (db : Database Provider Route) (published : Nat) :
    Refresh Provider Route → Outcome Provider Route
  | .begun =>
      .continues db (.providersLoaded published ⟨providersOf db.commits, db.commits.length⟩)
  | .providersLoaded since providers =>
      .continues db (.routesLoaded since providers ⟨routesOf db.commits, db.commits.length⟩)
  | .routesLoaded since providers routes =>
      .continues db.bumpEpoch (.epochBumped since providers routes)
  | .epochBumped since providers routes =>
      .continues db (.epochRead since ⟨db.epoch, providers, routes⟩)
  | .epochRead _ snapshot => .publishes snapshot

/-- A statement of the database can fail; storing the snapshot cannot. -/
def canFail : Refresh Provider Route → Bool
  | .epochRead _ _ => false
  | _ => true

end Refresh

/-- The loop of `spawn_epoch_poll`: asleep, or at a refresh with the epoch that
was read before it. -/
structure Poller (Provider Route : Type*) where
  lastSeen : Option Nat
  refreshing : Option (Nat × Refresh Provider Route)

/-- An admin operation: it commits, refreshes and returns. -/
inductive AdminTask (Node Provider Route : Type*)
  | idle
  | refreshing (node : Node) (commit : Nat) (refresh : Refresh Provider Route)
  | returned
  | failed

/-- A stored snapshot, with the commits whose operations had returned before. -/
structure Publication (Provider Route : Type*) where
  snapshot : ConfigSnapshot Provider Route
  acknowledged : List Nat
  byPoll : Bool

/-- The database, the tasks of all processes and what each process has
published, the newest first. -/
structure State (Node Op Provider Route : Type*) where
  db : Database Provider Route
  pollers : Node → Poller Provider Route
  admins : Op → AdminTask Node Provider Route
  published : Node → List (Publication Provider Route)
  acknowledged : Node → List Nat

inductive Action (Node Op Provider Route : Type*)
  | poll (node : Node)
  | pollAdvance (node : Node)
  | pollFail (node : Node)
  | commit (op : Op) (node : Node) (change : Change Provider Route)
  | advance (op : Op)
  | fail (op : Op)
  | setSetting

namespace Action

variable {Node Op Provider Route : Type*}

/-- An administrator writes something. -/
def isWrite : Action Node Op Provider Route → Bool
  | .commit _ _ _ => true
  | .setSetting => true
  | _ => false

end Action

section Step

variable {Node Op Provider Route : Type*} [DecidableEq Node] [DecidableEq Op]

namespace State

def setPoller (state : State Node Op Provider Route) (node : Node)
    (poller : Poller Provider Route) : State Node Op Provider Route :=
  { state with pollers := Function.update state.pollers node poller }

def setAdmin (state : State Node Op Provider Route) (op : Op)
    (task : AdminTask Node Provider Route) : State Node Op Provider Route :=
  { state with admins := Function.update state.admins op task }

def publish (state : State Node Op Provider Route) (node : Node)
    (snapshot : ConfigSnapshot Provider Route) (byPoll : Bool) : State Node Op Provider Route :=
  { state with
    published := Function.update state.published node
      (⟨snapshot, state.acknowledged node, byPoll⟩ :: state.published node) }

def acknowledge (state : State Node Op Provider Route) (node : Node) (commit : Nat) :
    State Node Op Provider Route :=
  { state with
    acknowledged := Function.update state.acknowledged node (commit :: state.acknowledged node) }

section Fields

variable (state : State Node Op Provider Route) (node : Node)

omit [DecidableEq Op] in
@[simp]
theorem setPoller_self (poller : Poller Provider Route) :
    (state.setPoller node poller).pollers node = poller :=
  Function.update_self _ _ _

omit [DecidableEq Op] in
theorem setPoller_of_ne {other : Node} (ne : other ≠ node) (poller : Poller Provider Route) :
    (state.setPoller node poller).pollers other = state.pollers other :=
  Function.update_of_ne ne _ _

omit [DecidableEq Node] in
@[simp]
theorem setAdmin_self (op : Op) (task : AdminTask Node Provider Route) :
    (state.setAdmin op task).admins op = task :=
  Function.update_self _ _ _

omit [DecidableEq Node] in
theorem setAdmin_of_ne {op other : Op} (ne : other ≠ op) (task : AdminTask Node Provider Route) :
    (state.setAdmin op task).admins other = state.admins other :=
  Function.update_of_ne ne _ _

omit [DecidableEq Op] in
@[simp]
theorem publish_self (snapshot : ConfigSnapshot Provider Route) (byPoll : Bool) :
    (state.publish node snapshot byPoll).published node =
      ⟨snapshot, state.acknowledged node, byPoll⟩ :: state.published node :=
  Function.update_self _ _ _

omit [DecidableEq Op] in
theorem publish_of_ne {other : Node} (ne : other ≠ node)
    (snapshot : ConfigSnapshot Provider Route) (byPoll : Bool) :
    (state.publish node snapshot byPoll).published other = state.published other :=
  Function.update_of_ne ne _ _

omit [DecidableEq Op] in
@[simp]
theorem acknowledge_self (commit : Nat) :
    (state.acknowledge node commit).acknowledged node = commit :: state.acknowledged node :=
  Function.update_self _ _ _

omit [DecidableEq Op] in
theorem acknowledge_of_ne {other : Node} (ne : other ≠ node) (commit : Nat) :
    (state.acknowledge node commit).acknowledged other = state.acknowledged other :=
  Function.update_of_ne ne _ _

end Fields

/-- Before the first poll. -/
def initial (db : Database Provider Route) : State Node Op Provider Route where
  db := db
  pollers := fun _ => ⟨none, none⟩
  admins := fun _ => .idle
  published := fun _ => []
  acknowledged := fun _ => []

end State

def step (state : State Node Op Provider Route) :
    Action Node Op Provider Route → Option (State Node Op Provider Route)
  | .poll node =>
      let poller := state.pollers node
      match poller.refreshing with
      | some _ => none
      | none =>
          if some state.db.epoch = poller.lastSeen then some state
          else some (state.setPoller node ⟨poller.lastSeen, some (state.db.epoch, .begun)⟩)
  | .pollAdvance node =>
      let poller := state.pollers node
      poller.refreshing.map fun (current, refresh) =>
        match refresh.advance state.db (state.published node).length with
        | .continues db next =>
            { state with db := db }.setPoller node ⟨poller.lastSeen, some (current, next)⟩
        | .publishes snapshot =>
            (state.publish node snapshot true).setPoller node ⟨some current, none⟩
  | .pollFail node =>
      let poller := state.pollers node
      if poller.refreshing.any (·.2.canFail) then
        some (state.setPoller node ⟨poller.lastSeen, none⟩)
      else none
  | .commit op node change =>
      match state.admins op with
      | .idle =>
          some ({ state with db := state.db.commit change }.setAdmin op
            (.refreshing node state.db.commits.length .begun))
      | _ => none
  | .advance op =>
      match state.admins op with
      | .refreshing node commit refresh =>
          match refresh.advance state.db (state.published node).length with
          | .continues db next =>
              some ({ state with db := db }.setAdmin op (.refreshing node commit next))
          | .publishes snapshot =>
              some (((state.publish node snapshot false).acknowledge node commit).setAdmin op
                .returned)
      | _ => none
  | .fail op =>
      match state.admins op with
      | .refreshing _ _ refresh => if refresh.canFail then some (state.setAdmin op .failed) else none
      | _ => none
  | .setSetting => some { state with db := state.db.bumpEpoch }

end Step

end TiyGate.Store
