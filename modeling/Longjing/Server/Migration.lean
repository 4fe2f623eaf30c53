import Longjing.Server.Store
import Mathlib.Data.List.Induction

/-!
This module contains the migration in `nullifier-store.service.ts`: how the store comes up on a database that an
earlier version left, and what a crash in between leaves behind.
-/

namespace Longjing
namespace Server
namespace Migration

open Js

/-- A row of an earlier version, with its values in other columns. -/
structure NullifierRow where
  nullifier : String
  x : String
  y : String
  extra : Map String (Option String)
deriving DecidableEq, Repr

def NullifierRow.dropped (row : NullifierRow) : List String := row.extra.filterMap Prod.snd

structure Table where
  columns : List String
  rows : List NullifierRow
deriving DecidableEq, Repr

/-- The file. A page that is freed keeps what was on it. -/
structure Database where
  nullifiers : Option Table
  -- the values in `redeemed_refunds`
  redeemedRefunds : Option (List String)
  -- `idx_nullifiers_timestamp`
  timestampIndex : Bool
  -- the dropped values on freed pages
  freed : List String
deriving DecidableEq, Repr

namespace Database

def get (db : Database) (nullifier : String) : Option StoredSignal :=
  (db.nullifiers.bind fun table => table.rows.find? (·.nullifier = nullifier)).map fun row => ⟨row.x, row.y⟩

/-- `PRAGMA table_info`, without the columns that stay. -/
def extraColumns (db : Database) : List String :=
  (db.nullifiers.elim [] Table.columns).filter (· ∉ ["nullifier", "x", "y"])

def needsWork (db : Database) : Bool := db.extraColumns ≠ [] || db.redeemedRefunds.isSome

/-- The rebuilt table, when it has more columns. -/
def rebuild (db : Database) : Database :=
  match db.nullifiers with
  | none => db
  | some table =>
    { db with
      nullifiers := some
        ⟨["nullifier", "x", "y"], table.rows.map fun row => { row with extra := [] }⟩
      timestampIndex := false
      freed := db.freed ++ table.rows.flatMap NullifierRow.dropped }

/-- The transaction. -/
def migrate (db : Database) (extra : Bool) : Database :=
  let db := if extra then db.rebuild else db
  { db with
    redeemedRefunds := none
    timestampIndex := false
    freed := db.freed ++ db.redeemedRefunds.getD [] }

def vacuum (db : Database) : Database := { db with freed := [] }

/-- `CREATE TABLE IF NOT EXISTS` -/
def createTable (db : Database) : Database :=
  { db with nullifiers := db.nullifiers.or (some ⟨["nullifier", "x", "y"], []⟩) }

/-- `onModuleInit` from start to end. -/
def onModuleInit (db : Database) : Database :=
  if db.needsWork then (db.migrate (db.extraColumns ≠ [])).vacuum.createTable else db.createTable

end Database

inductive Phase where
  | down
  -- the database is open
  | opened
  -- there is work, and so far it is not committed
  | migrating (extra : Bool)
  -- the transaction has committed
  | vacuuming
  | creating
  -- it has returned
  | ready
deriving DecidableEq, Repr

structure Process where
  db : Database
  phase : Phase
deriving DecidableEq, Repr

inductive Event where
  -- the next statement, or the next start
  | next
  | crash
deriving DecidableEq, Repr

namespace Process

/-- A crash leaves the file as it is. -/
def step (p : Process) : Event → Process
  | .crash => { p with phase := .down }
  | .next =>
    match p.phase with
    | .down => { p with phase := .opened }
    | .opened => { p with phase := if p.db.needsWork then .migrating (p.db.extraColumns ≠ []) else .creating }
    | .migrating extra => ⟨p.db.migrate extra, .vacuuming⟩
    | .vacuuming => ⟨p.db.vacuum, .creating⟩
    | .creating => ⟨p.db.createTable, .ready⟩
    | .ready => p

/-- A run on the database that an earlier version left. -/
def run (legacy : Database) (events : List Event) : Process := events.foldl step ⟨legacy, .down⟩

end Process

/-- What an earlier version leaves: an index is on a column, and nothing of this migration is on freed pages. -/
structure Legacy (db : Database) : Prop where
  index : db.timestampIndex = true → "timestamp" ∈ db.extraColumns
  freed : db.freed = []

/-- What is promised when the store is up. -/
structure Complete (legacy db : Database) : Prop where
  signals : ∀ nullifier, db.get nullifier = legacy.get nullifier
  columns : db.extraColumns = []
  redeemedRefunds : db.redeemedRefunds = none
  timestampIndex : db.timestampIndex = false
  vacuumed : db.freed = []
  again : db.onModuleInit = db

/-- No crash falls between the transaction and the end of `VACUUM`, if anything was dropped. -/
def Vacuums (legacy : Database) (events : List Event) : Prop :=
  ∀ earlier later, events = earlier ++ .crash :: later →
    ¬ ((Process.run legacy earlier).phase = .vacuuming ∧ (Process.run legacy earlier).db.freed ≠ [])

namespace Database

variable {db : Database}

theorem get_migrate (extra : Bool) (nullifier : String) : (db.migrate extra).get nullifier = db.get nullifier := by
  have hrebuild : db.rebuild.get nullifier = db.get nullifier := by
    unfold rebuild get
    cases hn : db.nullifiers with
    | none => simp [hn]
    | some table =>
      simp only [Option.bind_some]
      rw [List.find?_map, Option.map_map]
      rfl
  unfold migrate
  cases extra with
  | false => rfl
  | true => exact hrebuild

theorem extraColumns_migrate : (db.migrate (db.extraColumns ≠ [])).extraColumns = [] := by
  by_cases hextra : db.extraColumns = []
  . have hnone : decide (db.extraColumns ≠ []) = false := by simp [hextra]
    rw [hnone]
    exact hextra
  . unfold migrate rebuild
    simp only [hextra, ne_eq, not_false_eq_true, decide_true, if_true]
    cases hn : db.nullifiers with
    | none => simp [extraColumns, hn] at hextra
    | some table => rfl

theorem get_createTable (nullifier : String) : db.createTable.get nullifier = db.get nullifier := by
  unfold createTable get
  cases db.nullifiers <;> rfl

theorem extraColumns_createTable (h : db.extraColumns = []) : db.createTable.extraColumns = [] := by
  unfold createTable extraColumns at *
  cases hn : db.nullifiers with
  | none => rfl
  | some table => simpa [hn] using h

theorem createTable_createTable : db.createTable.createTable = db.createTable := by
  unfold createTable
  cases db.nullifiers <;> rfl

theorem needsWork_eq_false : db.needsWork = false ↔ db.extraColumns = [] ∧ db.redeemedRefunds = none := by
  simp [needsWork]

end Database

namespace Process

variable {legacy : Database} {p : Process}

/-- What holds wherever the process is. -/
structure Inv (legacy : Database) (p : Process) : Prop where
  signals : ∀ nullifier, p.db.get nullifier = legacy.get nullifier
  index : p.db.timestampIndex = true → "timestamp" ∈ p.db.extraColumns
  -- the transaction is about to do the work there is
  migrating : ∀ extra, p.phase = .migrating extra → extra = decide (p.db.extraColumns ≠ [])
  done : p.phase = .vacuuming ∨ p.phase = .creating ∨ p.phase = .ready → p.db.needsWork = false
  created : p.phase = .ready → p.db.createTable = p.db

theorem needsWork_migrate {db : Database} : (db.migrate (db.extraColumns ≠ [])).needsWork = false :=
  Database.needsWork_eq_false.mpr ⟨Database.extraColumns_migrate, rfl⟩

theorem needsWork_createTable {db : Database} (h : db.needsWork = false) : db.createTable.needsWork = false := by
  rw [Database.needsWork_eq_false] at h ⊢
  exact ⟨Database.extraColumns_createTable h.1, h.2⟩

theorem index_of_needsWork {db : Database} (h : db.timestampIndex = true → "timestamp" ∈ db.extraColumns)
    (hwork : db.needsWork = false) : db.timestampIndex = false := by
  rw [Database.needsWork_eq_false] at hwork
  rw [hwork.1] at h
  exact Bool.eq_false_iff.mpr fun hindex => absurd (h hindex) List.not_mem_nil

theorem Inv.init (h : Legacy legacy) : Inv legacy ⟨legacy, .down⟩ :=
  ⟨fun _ => rfl, h.index, (fun _ hphase => nomatch hphase), (fun hphase => by simp at hphase),
    (fun hphase => nomatch hphase)⟩

theorem Inv.step (h : Inv legacy p) (event : Event) : Inv legacy (p.step event) := by
  obtain ⟨db, phase⟩ := p
  obtain ⟨hsignals, hindex, hmigrating, hdone, hcreated⟩ := h
  cases event with
  | crash =>
    exact ⟨hsignals, hindex, (fun _ hphase => nomatch hphase), (fun hphase => by simp [Process.step] at hphase),
      (fun hphase => nomatch hphase)⟩
  | next =>
    cases phase with
    | down =>
      exact ⟨hsignals, hindex, (fun _ hphase => nomatch hphase), (fun hphase => by simp [Process.step] at hphase),
        (fun hphase => nomatch hphase)⟩
    | opened =>
      unfold Process.step
      simp only
      cases hwork : db.needsWork with
      | true =>
        exact ⟨hsignals, hindex, fun extra hphase => (by simpa using hphase.symm), (fun hphase => by simp at hphase),
          (fun hphase => nomatch hphase)⟩
      | false =>
        exact ⟨hsignals, hindex, (fun _ hphase => nomatch hphase), fun _ => hwork, (fun hphase => nomatch hphase)⟩
    | migrating extra =>
      have hextra : extra = decide (db.extraColumns ≠ []) := hmigrating extra rfl
      subst hextra
      refine ⟨fun n => (Database.get_migrate _ n).trans (hsignals n), (fun hset => nomatch hset),
        (fun _ hphase => nomatch hphase), fun _ => needsWork_migrate, (fun hphase => nomatch hphase)⟩
    | vacuuming =>
      exact ⟨hsignals, hindex, (fun _ hphase => nomatch hphase), fun _ => hdone (Or.inl rfl),
        (fun hphase => nomatch hphase)⟩
    | creating =>
      have hwork := hdone (Or.inr (Or.inl rfl))
      refine ⟨fun n => (Database.get_createTable n).trans (hsignals n), fun hset => ?_,
        (fun _ hphase => nomatch hphase), fun _ => needsWork_createTable hwork,
        fun _ => Database.createTable_createTable⟩
      have hset : db.timestampIndex = true := hset
      rw [index_of_needsWork hindex hwork] at hset
      contradiction
    | ready => exact ⟨hsignals, hindex, hmigrating, hdone, hcreated⟩

theorem run_concat (legacy : Database) (events : List Event) (event : Event)
    : run legacy (events ++ [event]) = (run legacy events).step event := by
  unfold run
  rw [List.foldl_append]
  rfl

theorem run_inv (h : Legacy legacy) (events : List Event) : Inv legacy (run legacy events) := by
  induction events using List.reverseRecOn with
  | nil => exact Inv.init h
  | append_singleton events event ih =>
    rw [run_concat]
    exact ih.step event

/-- Dropped values are left behind, and nothing tells the next start. -/
structure Lost (p : Process) : Prop where
  work : p.db.needsWork = false
  freed : p.db.freed ≠ []
  phase : p.phase ≠ .vacuuming ∧ ∀ extra, p.phase ≠ .migrating extra

theorem Lost.step (h : Lost p) (event : Event) : Lost (p.step event) := by
  obtain ⟨db, phase⟩ := p
  obtain ⟨hwork, hfreed, hvacuuming, hmigrating⟩ := h
  cases event with
  | crash => exact ⟨hwork, hfreed, by simp [Process.step]⟩
  | next =>
    cases phase with
    | down => exact ⟨hwork, hfreed, by simp [Process.step]⟩
    | opened => exact ⟨hwork, hfreed, by simp only [Process.step]; simp [hwork]⟩
    | migrating extra => exact absurd rfl (hmigrating extra)
    | vacuuming => exact absurd rfl hvacuuming
    | creating => exact ⟨needsWork_createTable hwork, hfreed, by simp [Process.step]⟩
    | ready => exact ⟨hwork, hfreed, hvacuuming, hmigrating⟩

/-- Outside `VACUUM` nothing is on freed pages. -/
def Swept (p : Process) : Prop := p.phase ≠ .vacuuming → p.db.freed = []

theorem Swept.step (h : Swept p) {event : Event}
    (hcrash : event = .crash → ¬ (p.phase = .vacuuming ∧ p.db.freed ≠ [])) : Swept (p.step event) := by
  obtain ⟨db, phase⟩ := p
  cases event with
  | crash =>
    intro _
    by_cases hphase : phase = .vacuuming
    . exact not_not.mp fun hfreed => hcrash rfl ⟨hphase, hfreed⟩
    . exact h hphase
  | next =>
    cases phase with
    | vacuuming => exact fun _ => rfl
    | migrating extra => exact fun hphase => absurd rfl hphase
    | down | opened | creating | ready => exact fun _ => h (by simp)

theorem vacuums_concat (events : List Event) (event : Event)
    : Vacuums legacy (events ++ [event])
      ↔ Vacuums legacy events
        ∧ (event = .crash → ¬ ((run legacy events).phase = .vacuuming ∧ (run legacy events).db.freed ≠ [])) := by
  constructor
  . intro h
    refine ⟨fun earlier later heq => h earlier (later ++ [event]) (by simp [heq]), ?_⟩
    rintro rfl
    exact h events [] rfl
  . rintro ⟨hbefore, hlast⟩ earlier later heq
    rcases List.eq_nil_or_concat later with rfl | ⟨later, last, rfl⟩
    . obtain ⟨rfl, hevent⟩ := List.append_inj' heq rfl
      exact hlast (List.cons.inj hevent).1
    . rw [List.concat_eq_append, ← List.cons_append, ← List.append_assoc] at heq
      exact hbefore earlier later (List.append_inj' heq rfl).1

theorem run_swept (h : Legacy legacy) {events : List Event} (hvacuums : Vacuums legacy events)
    : Swept (run legacy events) := by
  induction events using List.reverseRecOn with
  | nil => exact fun _ => h.freed
  | append_singleton events event ih =>
    obtain ⟨hbefore, hlast⟩ := (vacuums_concat events event).mp hvacuums
    rw [run_concat]
    exact (ih hbefore).step hlast

theorem run_lost (h : Legacy legacy) {events : List Event} (hvacuums : ¬ Vacuums legacy events)
    : Lost (run legacy events) := by
  induction events using List.reverseRecOn with
  | nil => exact absurd (fun earlier later heq => by simp at heq) hvacuums
  | append_singleton events event ih =>
    rw [run_concat]
    by_cases hbefore : Vacuums legacy events
    . rw [vacuums_concat, not_and] at hvacuums
      have hlast := hvacuums hbefore
      rw [Classical.not_imp, not_not] at hlast
      obtain ⟨rfl, hphase, hfreed⟩ := hlast
      exact ⟨(run_inv h events).done (Or.inl hphase), hfreed, by simp [Process.step]⟩
    . exact (ih hbefore).step event

end Process

/-- The store is up as promised exactly if no crash kept it from vacuuming what it dropped. -/
theorem onModuleInit_complete_iff {legacy : Database} (h : Legacy legacy) {events : List Event}
    (hready : (Process.run legacy events).phase = .ready)
    : Complete legacy (Process.run legacy events).db ↔ Vacuums legacy events := by
  constructor
  . intro hcomplete
    by_contra hvacuums
    exact (Process.run_lost h hvacuums).freed hcomplete.vacuumed
  . intro hvacuums
    obtain ⟨hsignals, hindex, -, hdone, hcreated⟩ := Process.run_inv h events
    have hwork := hdone (Or.inr (Or.inr hready))
    obtain ⟨hcolumns, hrefunds⟩ := Database.needsWork_eq_false.mp hwork
    have hfreed := Process.run_swept h hvacuums (by rw [hready]; decide)
    refine ⟨hsignals, hcolumns, hrefunds, Process.index_of_needsWork hindex hwork, hfreed, ?_⟩
    unfold Database.onModuleInit
    rw [hwork, if_neg Bool.false_ne_true]
    exact hcreated hready

section Example

/-- The database of the migration test. -/
def exampleLegacy : Database where
  nullifiers := some
    { columns := ["nullifier", "x", "y", "timestamp", "rln_share_a", "payload_hash", "ticket_index", "id_commitment"]
      rows := [⟨"0xn", "0xx", "0xy", [("timestamp", some "1"), ("rln_share_a", none), ("payload_hash", some "0xhash"),
        ("ticket_index", some "3"), ("id_commitment", some "0xcommitment")]⟩] }
  redeemedRefunds := some []
  timestampIndex := true
  freed := []

theorem exampleLegacy_legacy : Legacy exampleLegacy := ⟨by decide +kernel, rfl⟩

/-- A crash before the transaction, and a start that runs through. -/
theorem onModuleInit_complete_example
    : (Process.run exampleLegacy [.next, .next, .crash, .next, .next, .next, .next, .next]).phase = .ready
      ∧ Complete exampleLegacy
        (Process.run exampleLegacy [.next, .next, .crash, .next, .next, .next, .next, .next]).db := by
  have hready
      : (Process.run exampleLegacy [.next, .next, .crash, .next, .next, .next, .next, .next]).phase = .ready := by
    decide +kernel
  refine ⟨hready, (onModuleInit_complete_iff exampleLegacy_legacy hready).mpr ?_⟩
  intro earlier later heq
  rcases earlier with _ | ⟨first, _ | ⟨second, _ | ⟨third, rest⟩⟩⟩
  . simp at heq
  . simp at heq
  . simp only [List.cons_append, List.nil_append, List.cons.injEq] at heq
    obtain ⟨rfl, rfl, -, -⟩ := heq
    decide +kernel
  . simp only [List.cons_append, List.cons.injEq] at heq
    have hcrash : Event.crash ∈ rest ++ Event.crash :: later := by simp
    rw [← heq.2.2.2] at hcrash
    simp at hcrash

/-- The process dies after the transaction and before `VACUUM`: the next start finds nothing to do. -/
theorem onModuleInit_skips_vacuum
    : Legacy exampleLegacy
      ∧ (Process.run exampleLegacy [.next, .next, .next, .crash, .next, .next, .next]).phase = .ready
      ∧ "0xcommitment" ∈ (Process.run exampleLegacy [.next, .next, .next, .crash, .next, .next, .next]).db.freed
      ∧ ¬ Complete exampleLegacy (Process.run exampleLegacy [.next, .next, .next, .crash, .next, .next, .next]).db := by
  have hfreed : "0xcommitment"
      ∈ (Process.run exampleLegacy [.next, .next, .next, .crash, .next, .next, .next]).db.freed := by decide +kernel
  refine ⟨exampleLegacy_legacy, by decide +kernel, hfreed, fun h => ?_⟩
  rw [h.vacuumed] at hfreed
  exact absurd hfreed List.not_mem_nil

end Example

end Migration
end Server
end Longjing
