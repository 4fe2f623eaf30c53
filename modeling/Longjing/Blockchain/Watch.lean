import Mathlib.Data.List.Basic
import Mathlib.Tactic.Common

/-!
This module contains `watchWithdrawals` of `blockchain.service.ts` as a machine that runs against a
growing chain: every `await` is a state, and blocks may be mined in each of them.
-/

namespace Longjing
namespace Blockchain

/-- An exit's RLN signal at its claimed index. -/
structure WithdrawalInitiated where
  nullifier : Nat
  signalX : Nat
  signalY : Nat
deriving DecidableEq, Repr

def WITHDRAWAL_LOOKBACK_BLOCKS : Nat := 25000

/-- The `WithdrawalInitiated` events of one block, in the order of their logs. -/
abbrev Block := List WithdrawalInitiated

/-- An `ethers.EventLog`: where the event stands in the chain and its arguments. -/
structure EventLog where
  blockNumber : Nat
  index : Nat
  args : WithdrawalInitiated
deriving DecidableEq, Repr

namespace Watch

/--
Where `watchWithdrawals` is suspended. A read is answered from the chain as it is when the answer
comes, so `reading` and `querying` hold only what was known when they were sent.
-/
inductive Pc where
  -- awaits `getBlockNumber()`
  | reading
  -- awaits `queryFilter(.., max(0, latest - WITHDRAWAL_LOOKBACK_BLOCKS))`
  | querying (latest : Nat)
  -- awaits `handler(event)`, `rest` is what the loop has left
  | handling (rest : List EventLog)
  -- awaits `contract.on`
  | subscribing
  -- subscribed, `watchWithdrawals` has returned
  | live
  -- what it awaited was rejected, and so was `watchWithdrawals`: who connected only logs it
  | failed
deriving DecidableEq, Repr

/--
The chain and the service. `handed` lists the logs whose arguments the handler was called with. The
handler `ExitWatcherService.watch` passes catches what it throws, so it never rejects.
-/
structure State where
  genesis : Block
  mined : List Block
  pc : Pc
  handed : List EventLog
deriving DecidableEq, Repr

inductive Action where
  -- the network appends a block
  | mine (block : Block)
  -- what `watchWithdrawals` awaits is answered, and it runs to its next `await`
  | resume
  -- what `watchWithdrawals` awaits is rejected
  | reject
deriving DecidableEq, Repr

namespace State

def head (s : State) : Nat := s.mined.length

def blockLogs (block : Block) (number : Nat) : List EventLog :=
  block.zipIdx.map fun (event, index) => ⟨number, index, event⟩

def logs (s : State) : List EventLog :=
  (s.genesis :: s.mined).zipIdx.flatMap fun (block, number) => blockLogs block number

/-- What `queryFilter` answers for a first block and no last one. -/
def logsFrom (s : State) (first : Nat) : List EventLog :=
  s.logs.filter (first ≤ ·.blockNumber)

/-- The head of the `for` loop over the past events: the next handler call, or the subscription. -/
def next (s : State) (past : List EventLog) : State :=
  match past with
  | [] => { s with pc := .subscribing }
  | event :: rest => { s with pc := .handling rest, handed := s.handed ++ [event] }

def resume (s : State) : State :=
  match s.pc with
  | .reading => { s with pc := .querying s.head }
  | .querying latest => s.next (s.logsFrom (latest - WITHDRAWAL_LOOKBACK_BLOCKS))
  | .handling rest => s.next rest
  | .subscribing => { s with pc := .live }
  | .live => s
  | .failed => s

/-- Nothing catches a rejected call of the node. The handler is none: it catches what it throws. -/
def reject (s : State) : State :=
  match s.pc with
  | .reading => { s with pc := .failed }
  | .querying _ => { s with pc := .failed }
  | .handling _ => s
  | .subscribing => { s with pc := .failed }
  | .live => s
  | .failed => s

/-- A new block, whose events the listener gets when there is one. -/
def mine (s : State) (block : Block) : State :=
  let s' := { s with mined := s.mined ++ [block] }
  match s.pc with
  | .live => { s' with handed := s.handed ++ blockLogs block s'.head }
  | _ => s'

def step (s : State) : Action → State
  | .mine block => s.mine block
  | .resume => s.resume
  | .reject => s.reject

def run (s : State) (actions : List Action) : State :=
  actions.foldl step s

end State

/-- `watchWithdrawals` is called when the chain is `genesis :: mined`. -/
def start (genesis : Block) (mined : List Block) : State :=
  { genesis, mined, pc := .reading, handed := [] }

namespace State

theorem mem_blockLogs {block : Block} {number : Nat} {log : EventLog}
    : log ∈ blockLogs block number ↔ log.blockNumber = number ∧ block[log.index]? = some log.args := by
  unfold blockLogs
  simp only [List.mem_map, Prod.exists, List.mem_zipIdx_iff_getElem?]
  constructor
  . rintro ⟨event, index, hmem, rfl⟩
    exact ⟨rfl, hmem⟩
  . intro ⟨hnumber, hmem⟩
    exact ⟨log.args, log.index, hmem, by rw [← hnumber]⟩

theorem blockLogs_eq_nil {block : Block} (number : Nat)
    : (∀ log, log ∉ blockLogs block number) ↔ block = [] := by
  rw [← List.eq_nil_iff_forall_not_mem]
  simp [blockLogs]

theorem mem_logs {s : State} {log : EventLog}
    : log ∈ s.logs ↔ ∃ block, (s.genesis :: s.mined)[log.blockNumber]? = some block
        ∧ log ∈ blockLogs block log.blockNumber := by
  unfold logs
  simp only [List.mem_flatMap, Prod.exists, List.mem_zipIdx_iff_getElem?]
  constructor
  . rintro ⟨block, number, hblock, hlog⟩
    have hnumber := (mem_blockLogs.mp hlog).1
    subst hnumber
    exact ⟨block, hblock, hlog⟩
  . rintro ⟨block, hblock, hlog⟩
    exact ⟨block, log.blockNumber, hblock, hlog⟩

theorem mem_logsFrom {s : State} {first : Nat} {log : EventLog}
    : log ∈ s.logsFrom first ↔ log ∈ s.logs ∧ first ≤ log.blockNumber := by
  simp [logsFrom]

theorem blockNumber_le_head {s : State} {log : EventLog} (h : log ∈ s.logs)
    : log.blockNumber ≤ s.head := by
  obtain ⟨block, hblock, -⟩ := mem_logs.mp h
  have hlt := (List.getElem?_eq_some_iff.mp hblock).1
  simp only [List.length_cons] at hlt
  unfold head
  omega

theorem mem_logs_mine {s s' : State} {block : Block} {log : EventLog}
    (hgenesis : s'.genesis = s.genesis) (hmined : s'.mined = s.mined ++ [block])
    : log ∈ s'.logs ↔ log ∈ s.logs ∨ log ∈ blockLogs block (s.head + 1) := by
  rw [mem_logs, mem_logs, hgenesis, hmined, ← List.cons_append]
  have hlength : (s.genesis :: s.mined).length = s.head + 1 := by simp [head]
  rcases Nat.lt_or_ge log.blockNumber (s.head + 1) with hlt | hge
  . have hold : log ∉ blockLogs block (s.head + 1) := by
      intro hmem
      have := (mem_blockLogs.mp hmem).1
      omega
    rw [List.getElem?_append_left (by omega)]
    simp [hold]
  . have hnone : (s.genesis :: s.mined)[log.blockNumber]? = none := by
      rw [List.getElem?_eq_none_iff]
      omega
    rw [List.getElem?_append_right (by omega), hnone, hlength]
    constructor
    . rintro ⟨b, hb, hlog⟩
      obtain ⟨hlt, hb⟩ := List.getElem?_eq_some_iff.mp hb
      simp only [List.length_cons, List.length_nil] at hlt
      have hnumber : log.blockNumber = s.head + 1 := by omega
      simp only [hnumber, Nat.sub_self, List.getElem_cons_zero] at hb
      rw [hb, ← hnumber]
      exact Or.inr hlog
    . rintro (⟨b, hb, -⟩ | hlog)
      . exact absurd hb (by simp)
      . have hnumber := (mem_blockLogs.mp hlog).1
        exact ⟨block, by simp [hnumber], by rwa [hnumber]⟩

/-- The logs a state still has to hand over when nothing more is mined. -/
def pending (s : State) : List EventLog :=
  match s.pc with
  | .reading => s.logsFrom (s.head - WITHDRAWAL_LOOKBACK_BLOCKS)
  | .querying latest => s.logsFrom (latest - WITHDRAWAL_LOOKBACK_BLOCKS)
  | .handling rest => rest
  | .subscribing => []
  | .live => []
  | .failed => []

def eventual (s : State) : List EventLog :=
  s.handed ++ s.pending

theorem eventual_reading {s : State} (hpc : s.pc = .reading) (hhanded : s.handed = [])
    : s.eventual = s.logsFrom (s.head - WITHDRAWAL_LOOKBACK_BLOCKS) := by
  simp [eventual, pending, hpc, hhanded]

theorem eventual_next (s : State) (past : List EventLog)
    : (s.next past).eventual = s.handed ++ past := by
  cases past with
  | nil => simp [next, eventual, pending]
  | cons event rest => simp [next, eventual, pending]

theorem eventual_resume (s : State) : s.resume.eventual = s.eventual := by
  unfold resume
  split
  next h => simp [eventual, pending, h, logsFrom, logs, head]
  next latest h => rw [eventual_next]; simp [eventual, pending, h]
  next rest h => rw [eventual_next]; simp [eventual, pending, h]
  next h => simp [eventual, pending, h]
  next => rfl
  next => rfl

/-- How many answers a state awaits before it is subscribed, the loop's handler calls included. -/
def awaited (s : State) : Nat :=
  match s.pc with
  | .reading => s.pending.length + 3
  | .querying _ => s.pending.length + 2
  | .handling rest => rest.length + 2
  | .subscribing => 1
  | .live => 0
  | .failed => 0

theorem awaited_resume (s : State) : s.resume.awaited = s.awaited - 1 := by
  have hnext (s : State) (past : List EventLog) : (s.next past).awaited = past.length + 1 := by
    cases past with
    | nil => rfl
    | cons event rest => simp [next, awaited]
  unfold resume
  split
  next h => simp [awaited, pending, h, logsFrom, logs, head]
  next latest h => rw [hnext]; simp [awaited, pending, h]
  next rest h => rw [hnext]; simp [awaited, h]
  next h => simp [awaited, h]
  next h => simp [awaited, h]
  next h => simp [awaited, h]

theorem pending_eq_nil {s : State} (h : s.awaited = 0) : s.pending = [] := by
  unfold awaited at h
  unfold pending
  split at h <;> simp_all

theorem eventual_run_resume (s : State) (n : Nat)
    : (s.run (List.replicate n .resume)).eventual = s.eventual := by
  induction n generalizing s with
  | zero => rfl
  | succ n ih =>
    rw [List.replicate_succ]
    exact (ih s.resume).trans s.eventual_resume

theorem awaited_run_resume (s : State) (n : Nat)
    : (s.run (List.replicate n .resume)).awaited = s.awaited - n := by
  induction n generalizing s with
  | zero => rfl
  | succ n ih =>
    rw [List.replicate_succ]
    refine (ih s.resume).trans ?_
    rw [awaited_resume]
    omega

/-- Once everything it awaits is answered, the service has handed over exactly `eventual`. -/
theorem exists_handed_iff (s : State) (log : EventLog)
    : (∃ n, log ∈ (s.run (List.replicate n .resume)).handed) ↔ log ∈ s.eventual := by
  constructor
  . intro ⟨n, hlog⟩
    rw [← eventual_run_resume s n]
    exact List.mem_append_left _ hlog
  . intro hlog
    refine ⟨s.awaited, ?_⟩
    rw [← eventual_run_resume s s.awaited] at hlog
    have hnil := pending_eq_nil (s := s.run (List.replicate s.awaited .resume)) (by
      rw [awaited_run_resume]
      omega)
    simpa [eventual, hnil] using hlog

/--
A step that loses no event. While the past events are handled and the subscription is set up, a new
block is in neither the query's answer nor the listener's; a block mined before `getBlockNumber` answers
moves the first block of the query one block on; and a rejection leaves everything to come unheard.
-/
def Quiet (s : State) : Action → Prop
  | .resume => True
  | .mine block =>
    match s.pc with
    | .reading =>
      WITHDRAWAL_LOOKBACK_BLOCKS ≤ s.head →
        (s.genesis :: s.mined)[s.head - WITHDRAWAL_LOOKBACK_BLOCKS]? = some []
    | .querying _ => True
    | .handling _ => block = []
    | .subscribing => block = []
    | .live => True
    | .failed => block = []
  | .reject =>
    match s.pc with
    | .reading => s.logsFrom (s.head - WITHDRAWAL_LOOKBACK_BLOCKS) = []
    | .querying latest => s.logsFrom (latest - WITHDRAWAL_LOOKBACK_BLOCKS) = []
    | _ => True

/-- Every step of the schedule is quiet in the state it is taken in. -/
def QuietRun (s : State) : List Action → Prop
  | [] => True
  | a :: actions => s.Quiet a ∧ (s.step a).QuietRun actions

/-- Every event from `first` on is handed over once everything awaited is answered. -/
def Covers (s : State) (first : Nat) : Prop :=
  ∀ log ∈ s.logsFrom first, log ∈ s.eventual

/-- What no schedule changes: only logs of the chain are handed over, and none before the query. -/
structure Sound (first : Nat) (s : State) : Prop where
  mem_logs : ∀ log ∈ s.eventual, log ∈ s.logs
  handed_eq_nil : s.pc = .reading → s.handed = []
  first_le : s.pc = .reading → first ≤ s.head - WITHDRAWAL_LOOKBACK_BLOCKS
  latest_le : ∀ latest, s.pc = .querying latest →
    s.handed = [] ∧ first ≤ latest - WITHDRAWAL_LOOKBACK_BLOCKS ∧ latest ≤ s.head
  first_le_head : first ≤ s.head

theorem next_pc (s : State) (past : List EventLog)
    : (s.next past).pc ≠ .reading ∧ ∀ latest, (s.next past).pc ≠ .querying latest := by
  cases past <;> simp [next]

theorem resume_pc_ne_reading (s : State) : s.resume.pc ≠ .reading := by
  unfold resume
  split
  next => simp
  next => exact (s.next_pc _).1
  next => exact (s.next_pc _).1
  next => simp
  next h => simp [h]
  next h => simp [h]

theorem resume_latest {s : State} {latest : Nat} (h : s.resume.pc = .querying latest)
    : s.pc = .reading ∧ s.resume.handed = s.handed ∧ latest = s.head := by
  unfold resume at h ⊢
  split at h
  next hpc => exact ⟨hpc, rfl, by simpa using h.symm⟩
  next => exact absurd h ((s.next_pc _).2 latest)
  next => exact absurd h ((s.next_pc _).2 latest)
  next => simp at h
  next hpc => simp [hpc] at h
  next hpc => simp [hpc] at h

theorem resume_head (s : State) : s.resume.head = s.head := by
  have hnext (s : State) (past : List EventLog) : (s.next past).head = s.head := by
    cases past <;> rfl
  unfold resume
  split
  next => rfl
  next => exact hnext _ _
  next => exact hnext _ _
  next => rfl
  next => rfl
  next => rfl

theorem logs_resume (s : State) : s.resume.logs = s.logs := by
  have hnext (s : State) (past : List EventLog) : (s.next past).logs = s.logs := by
    cases past <;> rfl
  unfold resume
  split
  next => rfl
  next => exact hnext _ _
  next => exact hnext _ _
  next => rfl
  next => rfl
  next => rfl

theorem reject_fields (s : State)
    : s.reject.genesis = s.genesis ∧ s.reject.mined = s.mined ∧ s.reject.handed = s.handed
      ∧ (s.reject.pc = s.pc ∨ s.reject.pc = .failed) := by
  unfold reject
  split <;> simp

theorem mine_genesis (s : State) (block : Block) : (s.mine block).genesis = s.genesis := by
  unfold mine
  split <;> rfl

theorem mine_mined (s : State) (block : Block) : (s.mine block).mined = s.mined ++ [block] := by
  unfold mine
  split <;> rfl

theorem mine_pc (s : State) (block : Block) : (s.mine block).pc = s.pc := by
  unfold mine
  split
  next h => simp [h]
  next => rfl

theorem mine_head (s : State) (block : Block) : (s.mine block).head = s.head + 1 := by
  simp [head, mine_mined]

theorem mem_logsFrom_mine {s : State} {block : Block} {first : Nat} {log : EventLog}
    : log ∈ (s.mine block).logsFrom first
      ↔ log ∈ s.logsFrom first ∨ log ∈ blockLogs block (s.head + 1) ∧ first ≤ s.head + 1 := by
  rw [mem_logsFrom, mem_logsFrom, mem_logs_mine (s.mine_genesis block) (s.mine_mined block)]
  constructor
  . rintro ⟨hold | hnew, hfirst⟩
    . exact Or.inl ⟨hold, hfirst⟩
    . exact Or.inr ⟨hnew, (mem_blockLogs.mp hnew).1 ▸ hfirst⟩
  . rintro (⟨hold, hfirst⟩ | ⟨hnew, hfirst⟩)
    . exact ⟨Or.inl hold, hfirst⟩
    . exact ⟨Or.inr hnew, (mem_blockLogs.mp hnew).1 ▸ hfirst⟩

/-- A new block is handed over only to the query that is still open or to the listener. -/
theorem mem_eventual_mine {s : State} (block : Block) (log : EventLog)
    (hread : s.pc = .reading → s.handed = [])
    (hquery : ∀ latest, s.pc = .querying latest → latest ≤ s.head)
    : log ∈ (s.mine block).eventual ↔
      match s.pc with
      | .reading => log ∈ s.logsFrom (s.head + 1 - WITHDRAWAL_LOOKBACK_BLOCKS)
          ∨ log ∈ blockLogs block (s.head + 1)
      | .querying _ => log ∈ s.eventual ∨ log ∈ blockLogs block (s.head + 1)
      | .handling _ => log ∈ s.eventual
      | .subscribing => log ∈ s.eventual
      | .live => log ∈ s.eventual ∨ log ∈ blockLogs block (s.head + 1)
      | .failed => log ∈ s.eventual := by
  have hpc := s.mine_pc block
  have hhead := s.mine_head block
  cases h : s.pc with
  | reading =>
    have hhanded : (s.mine block).handed = [] := by
      unfold mine
      simp only [h]
      exact hread h
    rw [h] at hpc
    simp only [eventual, pending, hpc, hhanded, hhead, List.nil_append]
    rw [mem_logsFrom_mine]
    simp
  | querying latest =>
    have hhanded : (s.mine block).handed = s.handed := by
      unfold mine
      simp only [h]
    have hle := hquery latest h
    rw [h] at hpc
    simp only [eventual, pending, hpc, h, hhanded, List.mem_append]
    rw [mem_logsFrom_mine, or_assoc]
    have hfirst : latest - WITHDRAWAL_LOOKBACK_BLOCKS ≤ s.head + 1 := by omega
    simp [hfirst]
  | handling rest => simp [eventual, pending, mine, h]
  | subscribing => simp [eventual, pending, mine, h]
  | live => simp [eventual, pending, mine, h, head]
  | failed => simp [eventual, pending, mine, h]

theorem Sound.latest_le_head {first : Nat} {s : State} (h : Sound first s) (latest : Nat)
    (hpc : s.pc = .querying latest) : latest ≤ s.head :=
  (h.latest_le latest hpc).2.2

theorem Sound.start (genesis : Block) (mined : List Block)
    : Sound (mined.length - WITHDRAWAL_LOOKBACK_BLOCKS) (start genesis mined) where
  mem_logs log h := by
    rw [eventual_reading rfl rfl] at h
    exact (mem_logsFrom.mp h).1
  handed_eq_nil _ := rfl
  first_le _ := by simp [Watch.start, head]
  latest_le latest h := by simp [Watch.start] at h
  first_le_head := Nat.sub_le _ _

theorem Sound.resume {first : Nat} {s : State} (h : Sound first s) : Sound first s.resume where
  mem_logs log hlog := by
    rw [eventual_resume] at hlog
    rw [logs_resume]
    exact h.mem_logs log hlog
  handed_eq_nil hpc := absurd hpc s.resume_pc_ne_reading
  first_le hpc := absurd hpc s.resume_pc_ne_reading
  latest_le latest hpc := by
    obtain ⟨hread, hhanded, hlatest⟩ := resume_latest hpc
    rw [hhanded, resume_head, hlatest]
    exact ⟨h.handed_eq_nil hread, h.first_le hread, Nat.le_refl _⟩
  first_le_head := by rw [resume_head]; exact h.first_le_head

theorem Sound.mine {first : Nat} {s : State} (h : Sound first s) (block : Block)
    : Sound first (s.mine block) where
  mem_logs log hlog := by
    rw [mem_eventual_mine _ _ h.handed_eq_nil h.latest_le_head] at hlog
    rw [mem_logs_mine (s.mine_genesis block) (s.mine_mined block)]
    have hold := h.mem_logs log
    split at hlog
    next => exact hlog.imp_left fun hlog => (mem_logsFrom.mp hlog).1
    next => exact hlog.imp_left hold
    next => exact Or.inl (hold hlog)
    next => exact Or.inl (hold hlog)
    next => exact hlog.imp_left hold
    next => exact Or.inl (hold hlog)
  handed_eq_nil hpc := by
    rw [mine_pc] at hpc
    unfold State.mine
    simp only [hpc]
    exact h.handed_eq_nil hpc
  first_le hpc := by
    rw [mine_pc] at hpc
    rw [mine_head]
    have := h.first_le hpc
    omega
  latest_le latest hpc := by
    rw [mine_pc] at hpc
    obtain ⟨hhanded, hfirst, hle⟩ := h.latest_le latest hpc
    have hkept : (s.mine block).handed = s.handed := by
      unfold State.mine
      simp only [hpc]
    rw [mine_head, hkept]
    exact ⟨hhanded, hfirst, Nat.le_succ_of_le hle⟩
  first_le_head := by
    rw [mine_head]
    have := h.first_le_head
    omega

theorem Sound.reject {first : Nat} {s : State} (h : Sound first s) : Sound first s.reject := by
  obtain ⟨hgenesis, hmined, hhanded, hpc⟩ := s.reject_fields
  have hlogs : s.reject.logs = s.logs := by rw [logs, logs, hgenesis, hmined]
  have hhead : s.reject.head = s.head := by rw [head, head, hmined]
  constructor
  . intro log hlog
    rw [hlogs]
    refine h.mem_logs log ?_
    rcases hpc with hpc | hpc
    . have heventual : s.reject.eventual = s.eventual := by
        simp only [eventual, pending, hpc, hhanded, logsFrom, hlogs, hhead]
      rwa [heventual] at hlog
    . simp only [eventual, pending, hpc, hhanded, List.append_nil] at hlog
      exact List.mem_append_left _ hlog
  . intro hread
    rcases hpc with hpc | hpc
    . rw [hhanded]
      exact h.handed_eq_nil (hpc ▸ hread)
    . simp [hpc] at hread
  . intro hread
    rcases hpc with hpc | hpc
    . rw [hhead]
      exact h.first_le (hpc ▸ hread)
    . simp [hpc] at hread
  . intro latest hquery
    rcases hpc with hpc | hpc
    . rw [hhanded, hhead]
      exact h.latest_le latest (hpc ▸ hquery)
    . simp [hpc] at hquery
  . rw [hhead]
    exact h.first_le_head

theorem Sound.step {first : Nat} {s : State} (h : Sound first s) (a : Action)
    : Sound first (s.step a) := by
  cases a with
  | mine block => exact h.mine block
  | resume => exact h.resume
  | reject => exact h.reject

/-- Before the number is read, a block takes the oldest block of the window out of the query. -/
theorem covers_mine_reading {first : Nat} {s : State} (h : Sound first s) (block : Block)
    (hpc : s.pc = .reading)
    : (s.mine block).Covers first ↔ s.Covers first ∧ s.Quiet (.mine block) := by
  have hevent (log : EventLog) := mem_eventual_mine block log h.handed_eq_nil h.latest_le_head
  have hfirst := h.first_le hpc
  simp only [hpc] at hevent
  simp only [Covers, Quiet, hpc, mem_logsFrom_mine, hevent,
    eventual_reading hpc (h.handed_eq_nil hpc)]
  constructor
  . intro hcov
    have hkept (log : EventLog) (hlog : log ∈ s.logsFrom first)
        : log ∈ s.logsFrom (s.head + 1 - WITHDRAWAL_LOOKBACK_BLOCKS) := by
      refine (hcov log (Or.inl hlog)).resolve_right fun hnew => ?_
      have hnumber := (mem_blockLogs.mp hnew).1
      have hle := blockNumber_le_head (mem_logsFrom.mp hlog).1
      omega
    constructor
    . intro log hlog
      have hlog := mem_logsFrom.mp (hkept log hlog)
      exact mem_logsFrom.mpr ⟨hlog.1, by omega⟩
    . intro hfull
      have hlt : s.head - WITHDRAWAL_LOOKBACK_BLOCKS < (s.genesis :: s.mined).length := by
        simp only [List.length_cons, head]
        omega
      rw [List.getElem?_eq_getElem hlt, Option.some.injEq]
      refine (blockLogs_eq_nil (s.head - WITHDRAWAL_LOOKBACK_BLOCKS)).mp fun log hlog => ?_
      have hnumber := (mem_blockLogs.mp hlog).1
      have hmem : log ∈ s.logs := by
        rw [mem_logs, hnumber]
        exact ⟨_, List.getElem?_eq_getElem hlt, hlog⟩
      have := (mem_logsFrom.mp (hkept log (mem_logsFrom.mpr ⟨hmem, by omega⟩))).2
      omega
  . rintro ⟨hcov, hquiet⟩ log (hlog | ⟨hnew, -⟩)
    . refine Or.inl (mem_logsFrom.mpr ⟨(mem_logsFrom.mp hlog).1, ?_⟩)
      have hge := (mem_logsFrom.mp (hcov log hlog)).2
      by_contra hlt
      -- the log stands in the block that falls out of the window, which has none
      have hnumber : log.blockNumber = s.head - WITHDRAWAL_LOOKBACK_BLOCKS := by omega
      have hblock := hquiet (by omega)
      obtain ⟨b, hb, hmem⟩ := mem_logs.mp (mem_logsFrom.mp hlog).1
      rw [hnumber, hblock, Option.some.injEq] at hb
      subst hb
      simp [blockLogs] at hmem
    . exact Or.inr hnew

theorem covers_mine {first : Nat} {s : State} (h : Sound first s) (block : Block)
    : (s.mine block).Covers first ↔ s.Covers first ∧ s.Quiet (.mine block) := by
  have hevent (log : EventLog) := mem_eventual_mine block log h.handed_eq_nil h.latest_le_head
  -- a log of the new block is not among those handed over before it
  have hfresh (log : EventLog) (hnew : log ∈ blockLogs block (s.head + 1)) : log ∉ s.eventual := by
    intro hlog
    have hnumber := (mem_blockLogs.mp hnew).1
    have hle := blockNumber_le_head (h.mem_logs log hlog)
    omega
  have hreach : first ≤ s.head + 1 := by
    have := h.first_le_head
    omega
  have hgap (hevent : ∀ log, log ∈ (s.mine block).eventual ↔ log ∈ s.eventual)
      : (s.mine block).Covers first ↔ s.Covers first ∧ block = [] := by
    simp only [Covers, mem_logsFrom_mine, hevent]
    constructor
    . intro hcov
      refine ⟨fun log hlog => hcov log (Or.inl hlog), (blockLogs_eq_nil (s.head + 1)).mp fun log hnew => ?_⟩
      exact hfresh log hnew (hcov log (Or.inr ⟨hnew, hreach⟩))
    . rintro ⟨hcov, rfl⟩ log (hlog | ⟨hnew, -⟩)
      . exact hcov log hlog
      . simp [blockLogs] at hnew
  have hheard (hevent : ∀ log, log ∈ (s.mine block).eventual
        ↔ log ∈ s.eventual ∨ log ∈ blockLogs block (s.head + 1))
      : (s.mine block).Covers first ↔ s.Covers first := by
    simp only [Covers, mem_logsFrom_mine, hevent]
    constructor
    . intro hcov log hlog
      refine (hcov log (Or.inl hlog)).resolve_right fun hnew => ?_
      have hnumber := (mem_blockLogs.mp hnew).1
      have hle := blockNumber_le_head (mem_logsFrom.mp hlog).1
      omega
    . intro hcov log hlog
      exact hlog.imp (hcov log) And.left
  cases hpc : s.pc with
  | reading => exact covers_mine_reading h block hpc
  | querying latest =>
    simp only [hpc] at hevent
    simpa [Quiet, hpc] using hheard hevent
  | handling rest =>
    simp only [hpc] at hevent
    simpa [Quiet, hpc] using hgap hevent
  | subscribing =>
    simp only [hpc] at hevent
    simpa [Quiet, hpc] using hgap hevent
  | live =>
    simp only [hpc] at hevent
    simpa [Quiet, hpc] using hheard hevent
  | failed =>
    simp only [hpc] at hevent
    simpa [Quiet, hpc] using hgap hevent

/-- When a call of the node is rejected, what it would have brought is not handed over any more. -/
theorem covers_reject {first : Nat} {s : State} (h : Sound first s)
    : s.reject.Covers first ↔ s.Covers first ∧ s.Quiet .reject := by
  obtain ⟨hgenesis, hmined, hhanded, -⟩ := s.reject_fields
  have hlogs : s.reject.logsFrom first = s.logsFrom first := by
    rw [logsFrom, logsFrom, logs, logs, hgenesis, hmined]
  -- nothing is handed over yet, and everything to come is past `first`
  have hlost (reach : Nat) (hnil : s.handed = []) (hreach : first ≤ reach)
      (hpending : s.eventual = s.logsFrom reach) (hfailed : s.reject.eventual = [])
      : s.reject.Covers first ↔ s.Covers first ∧ s.logsFrom reach = [] := by
    have hsub : ∀ log ∈ s.logsFrom reach, log ∈ s.logsFrom first := by
      intro log hlog
      have hlog := mem_logsFrom.mp hlog
      exact mem_logsFrom.mpr ⟨hlog.1, Nat.le_trans hreach hlog.2⟩
    simp only [Covers, hlogs, hfailed, hpending]
    constructor
    . intro hcov
      refine ⟨fun log hlog => absurd (hcov log hlog) (by simp), ?_⟩
      rw [List.eq_nil_iff_forall_not_mem]
      exact fun log hlog => by simpa using hcov log (hsub log hlog)
    . rintro ⟨hcov, hnil⟩ log hlog
      rw [← hnil]
      exact hcov log hlog
  cases hpc : s.pc with
  | reading =>
    have hnil := h.handed_eq_nil hpc
    have hstep := hlost _ hnil (h.first_le hpc) (eventual_reading hpc hnil) (by
      simp [State.reject, eventual, pending, hpc, hnil])
    simpa [Quiet, hpc] using hstep
  | querying latest =>
    obtain ⟨hnil, hfirst, -⟩ := h.latest_le latest hpc
    have hstep := hlost _ hnil hfirst (by simp [eventual, pending, hpc, hnil]) (by
      simp [State.reject, eventual, pending, hpc, hnil])
    simpa [Quiet, hpc] using hstep
  | subscribing =>
    have heventual : s.reject.eventual = s.eventual := by simp [State.reject, eventual, pending, hpc]
    simp [Covers, Quiet, hpc, hlogs, heventual]
  | _ => simp [Quiet, State.reject, hpc]

theorem covers_step {first : Nat} {s : State} (h : Sound first s) (a : Action)
    : (s.step a).Covers first ↔ s.Covers first ∧ s.Quiet a := by
  cases a with
  | mine block => exact covers_mine h block
  | resume =>
    simp [step, Covers, Quiet, logsFrom, logs_resume, eventual_resume]
  | reject => exact covers_reject h

theorem covers_run {first : Nat} {s : State} (h : Sound first s) (actions : List Action)
    : (s.run actions).Covers first ↔ s.Covers first ∧ s.QuietRun actions := by
  induction actions generalizing s with
  | nil => simp [run, QuietRun]
  | cons a actions ih =>
    have := ih (h.step a)
    rw [covers_step h a] at this
    simp only [QuietRun, ← and_assoc]
    exact this

end State

/--
Whatever the schedule, every event from `WITHDRAWAL_LOOKBACK_BLOCKS` before the start on is handed to
the handler once the steps of `watchWithdrawals` have run, if and only if every step is quiet.
-/
theorem watchWithdrawals_hands_every_exit_iff (genesis : Block) (mined : List Block)
    (actions : List Action)
    : (∀ log ∈ ((start genesis mined).run actions).logsFrom (mined.length - WITHDRAWAL_LOOKBACK_BLOCKS),
        ∃ n, log ∈ ((start genesis mined).run (actions ++ List.replicate n .resume)).handed)
      ↔ (start genesis mined).QuietRun actions := by
  have hrun (n : Nat) : (start genesis mined).run (actions ++ List.replicate n .resume)
      = ((start genesis mined).run actions).run (List.replicate n .resume) := List.foldl_append
  simp only [hrun, State.exists_handed_iff]
  have hcovers : (start genesis mined).Covers (mined.length - WITHDRAWAL_LOOKBACK_BLOCKS) := by
    intro log hlog
    rw [State.eventual_reading rfl rfl]
    exact hlog
  refine (State.covers_run (State.Sound.start genesis mined) actions).trans ?_
  simp [hcovers]

/-- One exit, in a block mined while the subscription is set up, is never handed over. -/
theorem watchWithdrawals_misses_exit
    : ¬ ∀ log ∈ ((start [] []).run [.resume, .resume, .mine [⟨1, 2, 3⟩], .resume]).logsFrom 0,
        ∃ n, log ∈ ((start [] []).run
          ([.resume, .resume, .mine [⟨1, 2, 3⟩], .resume] ++ List.replicate n .resume)).handed := by
  have hrun (n : Nat) : (start [] []).run
        ([.resume, .resume, .mine [⟨1, 2, 3⟩], .resume] ++ List.replicate n .resume)
      = ((start [] []).run [.resume, .resume, .mine [⟨1, 2, 3⟩], .resume]).run
          (List.replicate n .resume) := List.foldl_append
  simp only [hrun, State.exists_handed_iff]
  decide +kernel

end Watch
end Blockchain
end Longjing
