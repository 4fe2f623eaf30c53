import Longjing.Server.Lemmas.Basic

/-!
At most once: whatever happens between its awaits, a nullifier is served by one execution only.
-/

namespace Longjing
namespace Server

open Js Accumulator
open Blockchain (WithdrawalInitiated)

/-- The field element a string stands for, in any of its encodings. -/
def denotes (value : String) (N : F) : Bool :=
  match toBigInt value with
  | some v => (v : F) = N
  | none => false

def isProviderCallFor (N : F) : Event → Bool
  | .provider req => denotes req.nullifier N
  | _ => false

def isSignatureFor (N : F) : Event → Bool
  | .signed req _ _ => denotes req.nullifier N
  | _ => false

def rowKey (N : F) : String := toString (N.val : Int)

namespace State

variable {cfg : Config} {s : State} {N : F}

def providerCalls (s : State) (N : F) : Nat := s.events.countP (isProviderCallFor N)
def signatures (s : State) (N : F) : Nat := s.events.countP (isSignatureFor N)

/-- An execution that will sign a successor for `N`, unless it fails. -/
def isServing (N : F) (exec : Exec) : Bool :=
  exec.pc.ticket?.isSome && denotes exec.req.nullifier N

def serving (s : State) (N : F) : Nat := s.execs.countP (isServing N)

/-- Executions go on with the canonical form of their nullifier. -/
def Named (s : State) : Prop :=
  ∀ exec ∈ s.execs, ∀ n, exec.pc.nullifier? = some n →
    ∃ v, parseFieldElement exec.req.nullifier = some v ∧ n = toString v

structure Once (N : F) (s : State) : Prop where
  named : s.Named
  balance : s.signatures N + s.serving N ≤ s.providerCalls N
  fresh : s.store.get (rowKey N) = none → s.providerCalls N = 0
  once : s.providerCalls N ≤ 1

theorem denotes_of_val {value : String} {a : F} (h : toBigInt value = some (a.val : Int)) (N : F)
    : denotes value N = decide (a = N) := by
  unfold denotes
  rw [h]
  simp

theorem Once.init (N : F) (rows : Map String StoredSignal) : Once N (init rows) where
  named := by
    intro exec hexec
    simp [Server.init] at hexec
  balance := by simp [signatures, serving, providerCalls, Server.init]
  fresh := by simp [providerCalls, Server.init]
  once := by simp [providerCalls, Server.init]

/-- A step that neither calls, signs nor serves. -/
theorem Once.idle {s' : State} (h : Once N s) (hnamed : s'.Named) (hevents : s'.events = s.events)
    (hserving : s'.serving N ≤ s.serving N)
    (hstore : s'.store.get (rowKey N) = none → s.store.get (rowKey N) = none) : Once N s' := by
  have hcalls : s'.providerCalls N = s.providerCalls N := by rw [providerCalls, hevents, providerCalls]
  have hsigns : s'.signatures N = s.signatures N := by rw [signatures, hevents, signatures]
  have hbalance := h.balance
  refine ⟨hnamed, by omega, fun hnone => ?_, ?_⟩
  . rw [hcalls]
    exact h.fresh (hstore hnone)
  . rw [hcalls]
    exact h.once

theorem countP_set_add {α : Type} {p : α → Bool} {l : List α} {i : Nat} {a b : α}
    (h : l[i]? = some a)
    : (l.set i b).countP p + (if p a then 1 else 0) = l.countP p + (if p b then 1 else 0) := by
  obtain ⟨hlt, hget⟩ := List.getElem?_eq_some_iff.mp h
  rw [List.countP_set hlt, hget]
  have hpos (ha : p a = true) : 0 < l.countP p :=
    List.countP_pos_iff.mpr ⟨a, List.mem_of_getElem? h, ha⟩
  by_cases ha : p a = true
  . have := hpos ha
    simp only [ha, if_true]
    omega
  . simp only [ha]
    simp

/-- The state after a piece of the execution at `i`. -/
def after (s : State) (i : Nat) (exec : Exec) (piece : Piece) : State :=
  { s with
    store := piece.store
    execs := s.execs.set i ⟨exec.req, piece.pc⟩
    events := s.events ++ piece.events }

theorem step_resume {i : Nat} {exec : Exec} {answer : Answer} (h : s.execs[i]? = some exec)
    : s.step cfg (.resume i answer)
      = s.after i exec (resume cfg s.now s.store exec.req exec.pc answer) := by
  simp only [State.step, h]
  rfl

theorem step_resume_none {i : Nat} {answer : Answer} (h : s.execs[i]? = none)
    : s.step cfg (.resume i answer) = s := by
  simp only [State.step, h]

theorem Named.after {i : Nat} {exec : Exec} {piece : Piece} (h : s.Named)
    (hexec : s.execs[i]? = some exec)
    (hpiece : ∀ n, piece.pc.nullifier? = some n → exec.pc.nullifier? = some n)
    : (s.after i exec piece).Named := by
  intro e he n hn
  rcases List.mem_or_eq_of_mem_set he with he | rfl
  . exact h e he n hn
  . exact h exec (List.mem_of_getElem? hexec) n (hpiece n hn)

theorem serving_after {i : Nat} {exec : Exec} (hexec : s.execs[i]? = some exec) (piece : Piece)
    : (s.after i exec piece).serving N + (if isServing N exec then 1 else 0)
      = s.serving N + (if isServing N ⟨exec.req, piece.pc⟩ then 1 else 0) :=
  countP_set_add hexec

theorem providerCalls_after (i : Nat) (exec : Exec) (piece : Piece)
    : (s.after i exec piece).providerCalls N
      = s.providerCalls N + piece.events.countP (isProviderCallFor N) :=
  List.countP_append

theorem signatures_after (i : Nat) (exec : Exec) (piece : Piece)
    : (s.after i exec piece).signatures N
      = s.signatures N + piece.events.countP (isSignatureFor N) :=
  List.countP_append

theorem countP_slashEvents {p : Event → Bool} (hreveal : ∀ a b, p (.slashRevealed a b) = false)
    (hslash : ∀ k, p (.slash k) = false) (enabled : Bool) (existing signal : StoredSignal)
    : (slashEvents enabled existing signal).countP p = 0 := by
  unfold slashEvents
  cases slashRevealed enabled existing signal with
  | none => simp [hreveal]
  | some k => simp [hreveal, hslash]

theorem Once.after_quiet {i : Nat} {exec : Exec} {piece : Piece} (h : Once N s)
    (hexec : s.execs[i]? = some exec) (hcalls : piece.events.countP (isProviderCallFor N) = 0)
    (hsigns : piece.events.countP (isSignatureFor N) = 0)
    (hticket : piece.pc.ticket?.isSome = true → exec.pc.ticket?.isSome = true)
    (hnullifier : ∀ n, piece.pc.nullifier? = some n → exec.pc.nullifier? = some n)
    (hstore : piece.store.get (rowKey N) = none → s.store.get (rowKey N) = none)
    : Once N (s.after i exec piece) := by
  have hserving := serving_after (N := N) hexec piece
  have hle : (if isServing N ⟨exec.req, piece.pc⟩ then 1 else 0) ≤ (if isServing N exec then 1 else 0) := by
    by_cases hnew : isServing N ⟨exec.req, piece.pc⟩ = true
    . have hold : isServing N exec = true := by
        simp only [isServing, Bool.and_eq_true] at hnew ⊢
        exact ⟨hticket hnew.1, hnew.2⟩
      simp [hnew, hold]
    . simp [hnew]
  have hbalance := h.balance
  refine ⟨h.named.after hexec hnullifier, ?_, fun hnone => ?_, ?_⟩
  . rw [providerCalls_after, signatures_after, hcalls, hsigns]
    omega
  . rw [providerCalls_after, hcalls]
    exact h.fresh (hstore hnone)
  . rw [providerCalls_after, hcalls]
    exact h.once

theorem Named.rowKey_of_denotes {exec : Exec} {nullifier : String} {cMax : Nat} {answer : VerifyAnswer}
    (h : s.Named) (hexec : exec ∈ s.execs) (hpc : exec.pc = .verifying nullifier cMax)
    (hverify : verify cfg exec.req cMax answer = .ok true)
    (hdenotes : denotes exec.req.nullifier N = true) : nullifier = rowKey N := by
  obtain ⟨signals⟩ := verify_eq_true hverify
  obtain ⟨v, hparse, hname⟩ := h exec hexec nullifier (by rw [hpc]; rfl)
  obtain ⟨hbig, -⟩ := toBigInt_of_parse exec.req.isFieldElement.2.1 hparse
  rw [signals.nullifier_eq, Option.some.injEq] at hbig
  rw [denotes_of_val signals.nullifier_eq N, decide_eq_true_eq] at hdenotes
  rw [hname, ← hbig, hdenotes]
  rfl

/-- The one piece that calls the provider finds no row and leaves one. -/
theorem Once.after_served {i : Nat} {exec : Exec} {nullifier : String} {cMax : Nat} {x y ax ay : Int}
    {answer : VerifyAnswer} (h : Once N s) (hexec : s.execs[i]? = some exec)
    (hpc : exec.pc = .verifying nullifier cMax) (hverify : verify cfg exec.req cMax answer = .ok true)
    (hnone : s.store.get nullifier = none)
    : Once N (s.after i exec ⟨s.store.insert nullifier (storedSignal x y),
        .calling ⟨nullifier, storedSignal x y, cMax, (ax, ay)⟩, [.accepted exec.req, .provider exec.req]⟩) := by
  have hold : isServing N exec = false := by simp [isServing, hpc, Pc.ticket?]
  have hserving := serving_after (N := N) hexec ⟨s.store.insert nullifier (storedSignal x y),
    .calling ⟨nullifier, storedSignal x y, cMax, (ax, ay)⟩, [.accepted exec.req, .provider exec.req]⟩
  have hbalance := h.balance
  have hnamed : (s.after i exec ⟨s.store.insert nullifier (storedSignal x y),
      .calling ⟨nullifier, storedSignal x y, cMax, (ax, ay)⟩,
      [.accepted exec.req, .provider exec.req]⟩).Named :=
    h.named.after hexec (by simp [hpc, Pc.nullifier?, Pc.ticket?])
  by_cases htrue : denotes exec.req.nullifier N = true
  . -- this request is for `N`: its row was free, so nothing was called before
    have hkey := h.named.rowKey_of_denotes (List.mem_of_getElem? hexec) hpc hverify htrue
    have hzero := h.fresh (hkey ▸ hnone)
    refine ⟨hnamed, ?_, ?_, ?_⟩
    . simp only [isServing, Pc.ticket?, htrue, hpc, Option.isSome_some, Option.isSome_none, Bool.and_true,
        if_true] at hserving
      rw [providerCalls_after, signatures_after]
      simp only [List.countP_cons, List.countP_nil, isProviderCallFor, isSignatureFor, htrue]
      simp at hserving ⊢
      omega
    . intro hget
      simp [State.after, Store.get_insert, hkey] at hget
    . rw [providerCalls_after]
      simp only [List.countP_cons, List.countP_nil, isProviderCallFor, htrue, hzero]
      simp
  -- it is for another nullifier: no count of `N` changes
  . have hfalse : denotes exec.req.nullifier N = false := by simpa using htrue
    refine ⟨hnamed, ?_, ?_, ?_⟩
    . simp only [isServing, Pc.ticket?, hfalse, Bool.and_false] at hserving
      rw [providerCalls_after, signatures_after]
      simp only [List.countP_cons, List.countP_nil, isProviderCallFor, isSignatureFor, hfalse]
      simp at hserving ⊢
      omega
    . intro hget
      rw [providerCalls_after]
      simp only [List.countP_cons, List.countP_nil, isProviderCallFor, hfalse]
      have : s.store.get (rowKey N) = none := by
        have hget : (s.store.insert nullifier (storedSignal x y)).get (rowKey N) = none := hget
        rw [Store.get_insert, Option.or_eq_none_iff] at hget
        exact hget.1
      simpa using h.fresh this
    . rw [providerCalls_after]
      simp only [List.countP_cons, List.countP_nil, isProviderCallFor, hfalse]
      simpa using h.once

theorem Once.after_signed {i : Nat} {exec : Exec} {ticket : Ticket} (h : Once N s)
    (hexec : s.execs[i]? = some exec) (hticket : exec.pc.ticket? = some ticket) (store : Store Kept)
    (outcome : Outcome) (accumulator : Point) (refund : Nat)
    (hstore : store.nullifiers = s.store.nullifiers)
    : Once N (s.after i exec ⟨store, .done outcome, [.signed exec.req accumulator refund]⟩) := by
  have hserving := serving_after (N := N) hexec
    ⟨store, .done outcome, [.signed exec.req accumulator refund]⟩
  have hbalance := h.balance
  have hrow : store.get (rowKey N) = s.store.get (rowKey N) := by
    unfold Store.get
    rw [hstore]
  have hcalls : (s.after i exec ⟨store, .done outcome, [.signed exec.req accumulator refund]⟩).providerCalls N
      = s.providerCalls N := by
    rw [providerCalls_after]
    simp [isProviderCallFor]
  refine ⟨h.named.after hexec (by simp [Pc.nullifier?, Pc.ticket?]), ?_, fun hnone => ?_, ?_⟩
  . rw [hcalls, signatures_after]
    simp only [List.countP_cons, List.countP_nil, isSignatureFor]
    have hold : isServing N exec = denotes exec.req.nullifier N := by simp [isServing, hticket]
    have hnew : isServing N ⟨exec.req, .done outcome⟩ = false := rfl
    rw [hold, hnew] at hserving
    by_cases hd : denotes exec.req.nullifier N = true
    . simp [hd] at hserving ⊢
      omega
    . simp [hd] at hserving ⊢
      omega
  . rw [hcalls]
    exact h.fresh (hrow.symm.trans hnone)
  . rw [hcalls]
    exact h.once

theorem Once.resumed {i : Nat} {exec : Exec} {piece : Piece} (h : Once N s)
    (hexec : s.execs[i]? = some exec) (hresumed : Resumed cfg s.now s.store exec.req exec.pc piece)
    : Once N (s.after i exec piece) := by
  generalize hpc : exec.pc = pc at hresumed
  have hinsert {nullifier : String} {signal : StoredSignal}
      (hget : (s.store.insert nullifier signal).get (rowKey N) = none) : s.store.get (rowKey N) = none := by
    rw [Store.get_insert, Option.or_eq_none_iff] at hget
    exact hget.1
  -- only `served` calls the provider and only `sign` signs, the other pieces leave the counts
  cases hresumed with
  | stay => exact h.after_quiet hexec rfl rfl (by simp [hpc]) (by simp [hpc]) id
  | pass _ hticket hnullifier =>
    exact h.after_quiet hexec rfl rfl (by simp [hticket]) (by rw [hpc]; exact hnullifier) id
  | accept nullifier cMax answer slashing hverify hrecorded =>
    cases hrecorded with
    | unreadable hparse =>
      exact h.after_quiet hexec rfl rfl (by simp [Pc.ticket?]) (by simp [Pc.nullifier?, Pc.ticket?]) id
    | revealed x y existing hx hy hget hne =>
      refine h.after_quiet hexec ?_ ?_ (by simp [Pc.ticket?]) (by simp [Pc.nullifier?, Pc.ticket?]) id
      . rw [List.countP_cons, countP_slashEvents (by intros; rfl) (by intros; rfl)]
        rfl
      . rw [List.countP_cons, countP_slashEvents (by intros; rfl) (by intros; rfl)]
        rfl
    | retried x y existing outcome hx hy hget heq =>
      exact h.after_quiet hexec rfl rfl (by simp [Pc.ticket?]) (by simp [Pc.nullifier?, Pc.ticket?]) id
    | served x y ax ay hx hy hax hay hget => exact h.after_served hexec hpc hverify hget
    | wasted x y hx hy hacc hget =>
      exact h.after_quiet hexec rfl rfl (by simp [Pc.ticket?]) (by simp [Pc.nullifier?, Pc.ticket?]) hinsert
  | keep hold hnew _ =>
    refine h.after_quiet hexec rfl rfl (by simp [hpc, hold]) ?_ id
    intro n hn
    have hnullifier {q : Pc} {ticket : Ticket} (hq : q.ticket? = some ticket)
        : q.nullifier? = some ticket.nullifier := by
      cases q <;> simp_all [Pc.ticket?, Pc.nullifier?]
    rw [hnullifier hnew] at hn
    rw [hpc, hnullifier hold, hn]
  | drop hold =>
    exact h.after_quiet hexec rfl rfl (by simp [Pc.ticket?]) (by simp [Pc.nullifier?, Pc.ticket?]) id
  | sign refund kept hticket _ =>
    exact h.after_signed hexec (hpc ▸ hticket) _ _ _ _ rfl

theorem ingest_quiet (store : Store Kept) (exit : WithdrawalInitiated) (slashing : Bool)
    : (∀ key, (ingest store exit slashing).1.get key = none → store.get key = none)
      ∧ ∀ p : Event → Bool, (∀ a b, p (.slashRevealed a b) = false) → (∀ k, p (.slash k) = false) →
          (ingest store exit slashing).2.countP p = 0 := by
  have hingested := ingest_sound store exit slashing
  generalize ingest store exit slashing = result at hingested
  cases hingested with
  | recorded hnone =>
    refine ⟨fun key hget => ?_, fun p _ _ => rfl⟩
    rw [Store.get_insert, Option.or_eq_none_iff] at hget
    exact hget.1
  | replayed => exact ⟨fun _ => id, fun p _ _ => rfl⟩
  | revealed => exact ⟨fun _ => id, fun p hreveal hslash => countP_slashEvents hreveal hslash _ _ _⟩

theorem Once.step (h : Once N s) (a : Action) : Once N (s.step cfg a) := by
  cases a with
  | arrive req =>
    obtain ⟨hrows, -, hevents, hticket, -, hname⟩ := startRequest_spec s.now s.store req
    refine h.idle ?_ ?_ ?_ ?_
    . intro exec hexec n hn
      rcases List.mem_append.mp hexec with hexec | hexec
      . exact h.named exec hexec n hn
      . rw [List.mem_singleton] at hexec
        subst hexec
        exact hname n hn
    . simp [State.step, hevents]
    . simp [State.step, serving, isServing, hticket]
    . simp [State.step, Store.get, hrows]
  | resume i answer =>
    cases hexec : s.execs[i]? with
    | none =>
      rw [step_resume_none hexec]
      exact h
    | some exec =>
      rw [step_resume hexec]
      exact h.resumed hexec (resume_sound exec.pc answer)
  -- an exit may leave the row of `N`, after which nothing is served under it
  | ingest exit slashing =>
    obtain ⟨hget, hevents⟩ := ingest_quiet s.store exit slashing
    have hcalls : (s.step cfg (.ingest exit slashing)).providerCalls N = s.providerCalls N := by
      simp [State.step, providerCalls, isProviderCallFor,
        hevents (isProviderCallFor N) (by intros; rfl) (by intros; rfl)]
    have hsigns : (s.step cfg (.ingest exit slashing)).signatures N = s.signatures N := by
      simp [State.step, signatures, isSignatureFor,
        hevents (isSignatureFor N) (by intros; rfl) (by intros; rfl)]
    refine ⟨h.named, ?_, fun hnone => ?_, ?_⟩
    . rw [hcalls, hsigns]
      exact h.balance
    . rw [hcalls]
      exact h.fresh (hget _ hnone)
    . rw [hcalls]
      exact h.once
  | clock now => exact h.idle h.named rfl (Nat.le_refl _) id
  | cleanup => exact h.idle h.named rfl (Nat.le_refl _) id
  | crash =>
    refine h.idle ?_ rfl ?_ id
    . intro exec hexec n hn
      obtain ⟨e, -, rfl⟩ := List.mem_map.mp hexec
      cases hpc : e.pc <;> simp [Pc.crash, hpc, Pc.nullifier?, Pc.ticket?] at hn
    -- who was being served will not be signed for
    . have hnone : ((s.step cfg .crash).serving N) = 0 := by
        unfold serving
        rw [List.countP_eq_zero]
        intro exec hexec
        obtain ⟨e, -, rfl⟩ := List.mem_map.mp hexec
        cases e.pc <;> simp [isServing, Pc.crash, Pc.ticket?]
      rw [hnone]
      exact Nat.zero_le _

theorem Once.run (h : Once N s) (actions : List Action) : Once N (s.run cfg actions) := by
  induction actions generalizing s with
  | nil => exact h
  | cons a actions ih => exact ih (h.step a)

theorem run_append (s : State) (before later : List Action)
    : s.run cfg (before ++ later) = (s.run cfg before).run cfg later :=
  List.foldl_append

theorem get_resumed {now : Nat} {store : Store Kept} {req : LongjingRequestDto} {pc : Pc} {piece : Piece}
    (h : Resumed cfg now store req pc piece) {key : String} {signal : StoredSignal}
    (hget : store.get key = some signal) : piece.store.get key = some signal := by
  have hinsert (nullifier : String) (other : StoredSignal)
      : (store.insert nullifier other).get key = some signal := by
    rw [Store.get_insert, hget]
    rfl
  cases h with
  | stay => exact hget
  | pass => exact hget
  | accept nullifier cMax answer slashing hverify hrecorded =>
    cases hrecorded with
    | unreadable => exact hget
    | revealed => exact hget
    | retried => exact hget
    | served => exact hinsert _ _
    | wasted => exact hinsert _ _
  | keep => exact hget
  | drop => exact hget
  | sign => exact hget

theorem get_ingest {store : Store Kept} {key : String} {signal : StoredSignal}
    (exit : WithdrawalInitiated) (slashing : Bool) (hget : store.get key = some signal)
    : (ingest store exit slashing).1.get key = some signal := by
  have hingested := ingest_sound store exit slashing
  generalize ingest store exit slashing = result at hingested
  cases hingested with
  | recorded hnone =>
    rw [Store.get_insert, hget]
    rfl
  | replayed => exact hget
  | revealed => exact hget

/-- A row is never changed or dropped. -/
theorem get_step {key : String} {signal : StoredSignal} (hget : s.store.get key = some signal)
    (a : Action) : (s.step cfg a).store.get key = some signal := by
  cases a with
  | arrive req =>
    have hrows := (startRequest_spec s.now s.store req).1
    simp only [State.step, Store.get, hrows]
    exact hget
  | resume i answer =>
    cases hexec : s.execs[i]? with
    | none =>
      rw [step_resume_none hexec]
      exact hget
    | some exec =>
      rw [step_resume hexec]
      exact get_resumed (resume_sound exec.pc answer) hget
  | ingest exit slashing => exact get_ingest exit slashing hget
  | clock now => exact hget
  | cleanup => exact hget
  | crash => exact hget

theorem get_run {key : String} {signal : StoredSignal} (hget : s.store.get key = some signal)
    (actions : List Action) : (s.run cfg actions).store.get key = some signal := by
  induction actions generalizing s with
  | nil => exact hget
  | cons a actions ih => exact ih (get_step hget a)

theorem get_step_ingest (exit : WithdrawalInitiated) (slashing : Bool)
    : (s.step cfg (.ingest exit slashing)).store.get (toString (exit.nullifier : Int)) ≠ none := by
  show (ingest s.store exit slashing).1.get _ ≠ none
  have hingested := ingest_sound s.store exit slashing
  generalize ingest s.store exit slashing = result at hingested
  cases hingested with
  | recorded hnone =>
    rw [Store.get_insert, hnone, if_pos rfl]
    simp
  | replayed existing hget =>
    rw [hget]
    simp
  | revealed existing hget =>
    rw [hget]
    simp

/-- Once its row is there, a nullifier is not served any more. -/
theorem providerCalls_resumed {i : Nat} {exec : Exec} {piece : Piece} (h : s.Named)
    (hexec : s.execs[i]? = some exec) (hresumed : Resumed cfg s.now s.store exec.req exec.pc piece)
    (hrow : s.store.get (rowKey N) ≠ none)
    : (s.after i exec piece).providerCalls N = s.providerCalls N := by
  rw [providerCalls_after]
  generalize hpc : exec.pc = pc at hresumed
  cases hresumed with
  | stay => rfl
  | pass => rfl
  | accept nullifier cMax answer slashing hverify hrecorded =>
    rw [List.countP_cons]
    cases hrecorded with
    | unreadable => rfl
    | revealed =>
      rw [countP_slashEvents (by intros; rfl) (by intros; rfl)]
      rfl
    | retried => rfl
    | served x y ax ay hx hy hax hay hget =>
      have hfalse : ¬ denotes exec.req.nullifier N = true := by
        intro hdenotes
        rw [h.rowKey_of_denotes (List.mem_of_getElem? hexec) hpc hverify hdenotes] at hget
        exact hrow hget
      simp [isProviderCallFor, hfalse]
    | wasted => rfl
  | keep => rfl
  | drop => rfl
  | sign => rfl

theorem providerCalls_step (h : s.Named) (hrow : s.store.get (rowKey N) ≠ none) (a : Action)
    : (s.step cfg a).providerCalls N = s.providerCalls N := by
  cases a with
  | arrive req =>
    have hevents := (startRequest_spec s.now s.store req).2.2.1
    simp [State.step, providerCalls, hevents]
  | resume i answer =>
    cases hexec : s.execs[i]? with
    | none => rw [step_resume_none hexec]
    | some exec =>
      rw [step_resume hexec]
      exact providerCalls_resumed h hexec (resume_sound exec.pc answer) hrow
  | ingest exit slashing =>
    have hevents := (ingest_quiet s.store exit slashing).2 (isProviderCallFor N) (by intros; rfl)
      (by intros; rfl)
    simp [State.step, providerCalls, isProviderCallFor, hevents]
  | clock now => rfl
  | cleanup => rfl
  | crash => rfl

theorem providerCalls_run (h : Once N s) (hrow : s.store.get (rowKey N) ≠ none)
    (actions : List Action) : (s.run cfg actions).providerCalls N = s.providerCalls N := by
  induction actions generalizing s with
  | nil => rfl
  | cons a actions ih =>
    obtain ⟨signal, hget⟩ := Option.ne_none_iff_exists'.mp hrow
    have hrow' : (s.step cfg a).store.get (rowKey N) ≠ none := by
      rw [get_step hget a]
      simp
    exact (ih (h.step a) hrow').trans (providerCalls_step h.named hrow a)

/-- An exit that comes first leaves nothing to sign. -/
theorem signatures_after_exit (h : Once N s) {exit : WithdrawalInitiated} (slashing : Bool)
    (hexit : exit.nullifier = N.val) (hzero : s.providerCalls N = 0) (actions : List Action)
    : ((s.step cfg (.ingest exit slashing)).run cfg actions).signatures N = 0 := by
  have hrow : (s.step cfg (.ingest exit slashing)).store.get (rowKey N) ≠ none := by
    have hkey : rowKey N = toString (exit.nullifier : Int) := by rw [hexit]; rfl
    rw [hkey]
    exact get_step_ingest exit slashing
  have honce : Once N (s.step cfg (.ingest exit slashing)) := h.step _
  have hlater : Once N ((s.step cfg (.ingest exit slashing)).run cfg actions) := honce.run actions
  have hbalance := hlater.balance
  rw [providerCalls_run honce hrow] at hbalance
  have hcalls : (s.step cfg (.ingest exit slashing)).providerCalls N = 0 := by
    have hevents := (ingest_quiet s.store exit slashing).2 (isProviderCallFor N) (by intros; rfl)
      (by intros; rfl)
    simpa [State.step, providerCalls, isProviderCallFor, hevents] using hzero
  omega

end State

/-- In any interleaving a nullifier is served at most once, and not at all after an exit with it; rows
stay as they are. -/
theorem request_served_at_most_once (cfg : Config) (rows : Map String StoredSignal) (N : F)
    (actions later : List Action)
    : let s := (init rows).run cfg actions
      (s.run cfg later).providerCalls N ≤ 1
        ∧ (s.run cfg later).signatures N ≤ 1
        ∧ (∀ exit : WithdrawalInitiated, ∀ slashing : Bool,
            exit.nullifier = N.val → s.providerCalls N = 0 →
            ((s.step cfg (.ingest exit slashing)).run cfg later).signatures N = 0)
        ∧ (∀ nullifier signal, s.store.get nullifier = some signal →
            (s.run cfg later).store.get nullifier = some signal) := by
  intro s
  have honce : State.Once N s := (State.Once.init N rows).run actions
  have hlater : State.Once N (s.run cfg later) := honce.run later
  have hbalance := hlater.balance
  have hcalls := hlater.once
  refine ⟨hcalls, by omega, ?_, ?_⟩
  . intro exit slashing hexit hzero
    exact State.signatures_after_exit honce slashing hexit hzero later
  . intro nullifier signal hget
    exact State.get_run hget later

end Server
end Longjing
