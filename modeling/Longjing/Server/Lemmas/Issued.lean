import Longjing.Lib.Log
import Longjing.Server.Lemmas.Retry

/-!
What the server hands out: successors of the accumulators of verified requests, each with a refund of
C_MAX at most.
-/

namespace Longjing
namespace Server

open Js Accumulator

variable (cfg : Config) (cMax : Nat)

structure Ticket.For (req : LongjingRequestDto) (ticket : Ticket) : Prop where
  cMax_eq : ticket.cMax = cMax
  x_eq : parseFieldElement req.accumulator.x = some ticket.published.1
  y_eq : parseFieldElement req.accumulator.y = some ticket.published.2

/-- The successor of the accumulator that a request published. -/
structure Successor (req : LongjingRequestDto) (a : Point) (refund : Nat) : Prop where
  successor : ∃ published : Point, parseFieldElement req.accumulator.x = some published.1
    ∧ parseFieldElement req.accumulator.y = some published.2 ∧ a = applyRefund published refund
  refund_le : refund ≤ cMax

/-- What comes before an event: a call of the provider is for a request that verified right before it,
and a signature for one whose provider was called. -/
def Follows (pre : List Event) : Event → Prop
  | .accepted req => ∃ answer, verify cfg req cMax answer = .ok true
  | .provider req => .accepted req ∈ pre
  | .signed req a refund => .provider req ∈ pre ∧ Successor cMax req a refund
  | _ => True

/-- A refund of C_MAX at most, over an accumulator that was published. -/
def Kept.Bounded (kept : Kept) : Prop :=
  ∃ (published : Point) (refund : Nat), refund ≤ cMax
    ∧ kept.carries refund (nextAccumulator cfg published refund)

theorem Kept.outcome_injective {kept kept' : Kept} (h : kept.outcome = kept'.outcome) : kept = kept' := by
  cases kept <;> cases kept' <;> simp_all [Kept.outcome]

namespace State

/-- Every response that a request ended with, or that is kept for a retry. -/
structure KeptAll (P : Kept → Prop) (s : State) : Prop where
  execs : ∀ exec ∈ s.execs, ∀ kept : Kept, exec.pc = .done kept.outcome → P kept
  store : ∀ entry ∈ s.store.responses, P entry.2.response

structure Issued (s : State) : Prop where
  priced : ∀ exec ∈ s.execs, ∀ c, exec.pc.cMax? = some c → c = cMax
  tickets : ∀ exec ∈ s.execs, ∀ ticket, exec.pc.ticket? = some ticket →
    ticket.For cMax exec.req ∧ Event.provider exec.req ∈ s.events
  signing : ∀ exec ∈ s.execs, ∀ ticket refund content, exec.pc = .signing ticket refund content →
    refund ≤ cMax
  log : Log.Justified (Follows cfg cMax) s.events
  kept : s.KeptAll (Kept.Bounded cfg cMax)

variable {cfg cMax} {s : State} {P : Kept → Prop}

theorem recallResponse_mem {store : Store Kept} {now : Nat} {nullifier : String} {signal : StoredSignal}
    {kept : Kept} (h : store.recallResponse now nullifier signal = some kept)
    : ∃ entry ∈ store.responses, entry.2.response = kept := by
  unfold Store.recallResponse at h
  split at h
  next => simp at h
  next cached hcached =>
    split at h
    next => simp at h
    next =>
      split at h
      next => simp at h
      next => exact ⟨_, Map.mem_of_get hcached, Option.some.inj h⟩

theorem startRequest_ne_kept (now : Nat) (store : Store Kept) (req : LongjingRequestDto) (kept : Kept)
    : (startRequest now store req).pc ≠ .done kept.outcome := by
  unfold startRequest
  simp only
  split
  . exact refuse_ne_kept _ _ kept
  . split
    . exact other_ne_kept kept
    . split
      . exact refuse_ne_kept _ _ kept
      . simp

theorem KeptAll.piece {req : LongjingRequestDto} {pc : Pc} {piece : Piece} {now : Nat} {store : Store Kept}
    (hstore : ∀ entry ∈ store.responses, P entry.2.response)
    (hpc : ∀ kept : Kept, pc = .done kept.outcome → P kept)
    (hresumed : Resumed cfg now store req pc piece)
    (hsign : ∀ ticket refund kept, pc.ticket? = some ticket →
      (refund = ticket.cMax ∨ ∃ content, pc = .signing ticket refund content) →
      kept.carries refund (nextAccumulator cfg ticket.published refund) → P kept)
    : (∀ kept : Kept, piece.pc = .done kept.outcome → P kept)
      ∧ ∀ entry ∈ piece.store.responses, P entry.2.response := by
  cases hresumed with
  | stay => exact ⟨hpc, hstore⟩
  | pass _ _ _ _ hnot => exact ⟨fun kept h => absurd h (hnot kept), hstore⟩
  | accept _ _ _ _ _ hrecorded =>
    cases hrecorded with
    | unreadable => exact ⟨fun kept h => absurd h (other_ne_kept kept), hstore⟩
    | revealed => exact ⟨(fun kept h => nomatch h), hstore⟩
    | retried x y existing outcome _ _ _ _ houtcome =>
      refine ⟨fun kept h => ?_, hstore⟩
      rcases houtcome with rfl | ⟨kept', hrecall, rfl⟩
      . exact absurd h (refuse_ne_kept _ _ kept)
      . obtain ⟨entry, hentry, rfl⟩ := recallResponse_mem hrecall
        rw [← Kept.outcome_injective (Pc.done.inj h)]
        exact hstore entry hentry
    | served => exact ⟨(fun kept h => nomatch h), hstore⟩
    | wasted => exact ⟨fun kept h => absurd h (other_ne_kept kept), hstore⟩
  | keep _ hafter _ =>
    refine ⟨fun kept h => ?_, hstore⟩
    obtain rfl := h
    simp [Pc.ticket?] at hafter
  | drop => exact ⟨fun kept h => absurd h (other_ne_kept kept), hstore⟩
  | sign refund kept hticket hrefund hcarries =>
    have hkept := hsign _ refund kept hticket hrefund hcarries
    refine ⟨fun kept' h => ?_, fun entry hentry => ?_⟩
    . rw [← Kept.outcome_injective (Pc.done.inj h)]
      exact hkept
    . rcases Map.mem_set hentry with rfl | hold
      . exact hkept
      . exact hstore entry hold

theorem KeptAll.step (h : s.KeptAll P) (a : Action)
    (hsign : ∀ exec ∈ s.execs, ∀ ticket refund kept, exec.pc.ticket? = some ticket →
      (refund = ticket.cMax ∨ ∃ content, exec.pc = .signing ticket refund content) →
      kept.carries refund (nextAccumulator cfg ticket.published refund) → P kept)
    : (s.step cfg a).KeptAll P := by
  cases a with
  -- `startRequest` refuses a request at most, with none of the kept responses
  | arrive req =>
    obtain ⟨-, hresponses, -⟩ := startRequest_spec s.now s.store req
    refine ⟨?_, ?_⟩
    . intro exec hexec kept hkept
      rcases List.mem_append.mp hexec with hold | hnew
      . exact h.execs exec hold kept hkept
      . rw [List.mem_singleton.mp hnew] at hkept
        exact absurd hkept (startRequest_ne_kept _ _ _ kept)
    . show ∀ entry ∈ (startRequest s.now s.store req).store.responses, P entry.2.response
      rw [hresponses]
      exact h.store
  | resume i answer =>
    cases hexec : s.execs[i]? with
    | none =>
      rw [step_resume_none hexec]
      exact h
    | some exec =>
      have hmem := List.mem_of_getElem? hexec
      rw [step_resume hexec]
      obtain ⟨hpc, hstore⟩ := KeptAll.piece h.store (h.execs exec hmem)
        (@resume_sound cfg s.now s.store exec.req exec.pc answer) (hsign exec hmem)
      refine ⟨?_, hstore⟩
      intro exec' hexec'
      rcases List.mem_or_eq_of_mem_set hexec' with hold | rfl
      . exact h.execs exec' hold
      . exact hpc
  | ingest exit slashing =>
    refine ⟨h.execs, ?_⟩
    -- an exit leaves a row and no response
    have hsame : (s.step cfg (.ingest exit slashing)).store.responses = s.store.responses := by
      show (ingest s.store exit slashing).1.responses = s.store.responses
      have hingested := ingest_sound s.store exit slashing
      generalize ingest s.store exit slashing = result at hingested
      cases hingested <;> rfl
    rw [hsame]
    exact h.store
  | clock now => exact ⟨h.execs, h.store⟩
  | cleanup =>
    refine ⟨h.execs, ?_⟩
    intro entry hentry
    exact h.store entry (List.mem_of_mem_filter hentry)
  | crash =>
    refine ⟨?_, by simp [State.step, Store.restart]⟩
    intro exec hexec kept hkept
    obtain ⟨exec, hmem, rfl⟩ := List.mem_map.mp hexec
    -- what was answered before the crash stays answered
    cases hpc : exec.pc with
    | done outcome =>
      simp only [hpc, Pc.crash] at hkept
      exact h.execs exec hmem kept (by rw [hpc, hkept])
    | _ => simp [hpc, Pc.crash] at hkept

theorem Issued.init (cfg : Config) (cMax : Nat) (rows : Map String StoredSignal)
    : Issued cfg cMax (Server.init rows) where
  priced := by simp [Server.init]
  tickets := by simp [Server.init]
  signing := by simp [Server.init]
  log := Log.justified_nil
  kept := ⟨by simp [Server.init], by simp [Server.init]⟩

theorem Issued.refund_le {exec : Exec} {ticket : Ticket} {refund : Nat} (h : s.Issued cfg cMax)
    (hexec : exec ∈ s.execs) (hticket : exec.pc.ticket? = some ticket)
    (hrefund : refund = ticket.cMax ∨ ∃ content, exec.pc = .signing ticket refund content) : refund ≤ cMax := by
  rcases hrefund with rfl | ⟨content, hpc⟩
  . exact Nat.le_of_eq (h.tickets exec hexec ticket hticket).1.cMax_eq
  . exact h.signing exec hexec ticket refund content hpc

theorem follows_slashEvents (enabled : Bool) (existing signal : StoredSignal) (log : List Event)
    (h : Log.Justified (Follows cfg cMax) log)
    : Log.Justified (Follows cfg cMax) (log ++ slashEvents enabled existing signal) := by
  apply h.append
  intro pre e post heq
  have hmem : e ∈ slashEvents enabled existing signal := by simp [heq]
  unfold slashEvents at hmem
  cases hkey : slashRevealed enabled existing signal with
  | none =>
    rw [hkey] at hmem
    obtain rfl := List.mem_singleton.mp hmem
    trivial
  | some k =>
    rw [hkey] at hmem
    rcases List.mem_cons.mp hmem with rfl | hslash
    . trivial
    . obtain rfl := List.mem_singleton.mp hslash
      trivial

theorem Issued.log_resumed {exec : Exec} {piece : Piece} (h : s.Issued cfg cMax) (hexec : exec ∈ s.execs)
    (hresumed : Resumed cfg s.now s.store exec.req exec.pc piece)
    : Log.Justified (Follows cfg cMax) (s.events ++ piece.events) := by
  have hpriced := h.priced exec hexec
  have htickets := h.tickets exec hexec
  have hrefund (ticket : Ticket) (refund : Nat) := @Issued.refund_le cfg cMax s exec ticket refund h hexec
  have hlog := h.log
  generalize exec.pc = pc at hresumed hpriced htickets hrefund
  cases hresumed with
  | stay => simpa using hlog
  | pass => simpa using hlog
  | accept nullifier c answer slashing hverify hrecorded =>
    obtain rfl := hpriced c rfl
    have haccepted : Log.Justified (Follows cfg c) (s.events ++ [.accepted exec.req]) :=
      Log.justified_concat.mpr ⟨hlog, answer, hverify⟩
    simp only
    rw [← List.singleton_append, ← List.append_assoc]
    cases hrecorded with
    | unreadable => simpa using haccepted
    | revealed => exact follows_slashEvents _ _ _ _ haccepted
    | retried => simpa using haccepted
    | served => exact Log.justified_concat.mpr ⟨haccepted, List.mem_append_right _ (List.mem_singleton_self _)⟩
    | wasted => simpa using haccepted
  | keep => simpa using hlog
  | drop => simpa using hlog
  | sign refund kept hticket hallowed _ =>
    obtain ⟨hfor, hprovider⟩ := htickets _ hticket
    exact Log.justified_concat.mpr ⟨hlog, hprovider, ⟨_, hfor.x_eq, hfor.y_eq, rfl⟩,
      hrefund _ refund hticket hallowed⟩

theorem Issued.ticket_resumed {exec : Exec} {piece : Piece} (h : s.Issued cfg cMax) (hexec : exec ∈ s.execs)
    (hresumed : Resumed cfg s.now s.store exec.req exec.pc piece) {ticket : Ticket}
    (hticket : piece.pc.ticket? = some ticket)
    : ticket.For cMax exec.req ∧ Event.provider exec.req ∈ s.events ++ piece.events
      ∧ ∀ refund content, piece.pc = .signing ticket refund content → refund ≤ cMax := by
  have hpriced := h.priced exec hexec
  have htickets := h.tickets exec hexec
  have hsigning := h.signing exec hexec
  generalize exec.pc = pc at hresumed hpriced htickets hsigning
  cases hresumed with
  | stay =>
    obtain ⟨hfor, hprovider⟩ := htickets ticket hticket
    exact ⟨hfor, List.mem_append_left _ hprovider, hsigning ticket⟩
  | pass _ hnone => simp [hnone] at hticket
  | accept nullifier c answer slashing hverify hrecorded =>
    obtain rfl := hpriced c rfl
    cases hrecorded with
    | unreadable => simp [Pc.ticket?] at hticket
    | revealed => simp [Pc.ticket?] at hticket
    | retried => simp [Pc.ticket?] at hticket
    | served x y ax ay hx hy hax hay hfresh =>
      obtain rfl := Option.some.inj hticket
      exact ⟨⟨rfl, hax, hay⟩, by simp, fun _ _ hpc => Pc.noConfusion hpc⟩
    | wasted => simp [Pc.ticket?] at hticket
  | keep hbefore hafter hbound =>
    obtain rfl := Option.some.inj (hafter.symm.trans hticket)
    obtain ⟨hfor, hprovider⟩ := htickets _ hbefore
    refine ⟨hfor, List.mem_append_left _ hprovider, fun refund content hpc => ?_⟩
    rw [← hfor.cMax_eq]
    exact hbound refund content hpc
  | drop => simp [Pc.ticket?] at hticket
  | sign => simp [Pc.ticket?] at hticket

theorem Issued.step {a : Action} (h : s.Issued cfg cMax)
    (ha : ∀ i c, a = .resume i (.matched (some c)) → c = cMax) : (s.step cfg a).Issued cfg cMax := by
  have hkept : (s.step cfg a).KeptAll (Kept.Bounded cfg cMax) := by
    refine h.kept.step a ?_
    intro exec hexec ticket refund kept hticket hrefund hcarries
    exact ⟨ticket.published, refund, h.refund_le hexec hticket hrefund, hcarries⟩
  cases a with
  -- a new execution has neither a ticket nor a C_MAX
  | arrive req =>
    obtain ⟨-, -, hevents, hticket, hfresh, -⟩ := startRequest_spec s.now s.store req
    have hlog : (s.step cfg (.arrive req)).events = s.events := by
      show s.events ++ (startRequest s.now s.store req).events = s.events
      rw [hevents, List.append_nil]
    refine ⟨?_, ?_, ?_, hlog ▸ h.log, hkept⟩
    . intro exec hexec c hc
      rcases List.mem_append.mp hexec with hold | hnew
      . exact h.priced exec hold c hc
      . rw [List.mem_singleton.mp hnew] at hc
        rw [Pc.matched_of_cMax? hc] at hfresh
        contradiction
    . intro exec hexec ticket ht
      rw [hlog]
      rcases List.mem_append.mp hexec with hold | hnew
      . exact h.tickets exec hold ticket ht
      . rw [List.mem_singleton.mp hnew, hticket] at ht
        contradiction
    . intro exec hexec ticket refund content hpc
      rcases List.mem_append.mp hexec with hold | hnew
      . exact h.signing exec hold ticket refund content hpc
      . rw [List.mem_singleton.mp hnew] at hpc
        simp only at hpc
        rw [hpc] at hticket
        simp [Pc.ticket?] at hticket
  | resume i answer =>
    cases hexec : s.execs[i]? with
    | none =>
      rw [step_resume_none hexec]
      exact h
    | some exec =>
      have hmem := List.mem_of_getElem? hexec
      have hresumed := @resume_sound cfg s.now s.store exec.req exec.pc answer
      rw [step_resume hexec] at hkept ⊢
      -- the piece replaces one execution
      refine ⟨?_, ?_, ?_, h.log_resumed hmem hresumed, hkept⟩
      . intro exec' hexec' c hc
        rcases List.mem_or_eq_of_mem_set hexec' with hold | rfl
        . exact h.priced exec' hold c hc
        . rcases resume_cMax? exec.pc answer c hc with hbefore | hmatched
          . exact h.priced exec hmem c hbefore
          . exact ha i c (by rw [hmatched])
      . intro exec' hexec' ticket ht
        rcases List.mem_or_eq_of_mem_set hexec' with hold | rfl
        . obtain ⟨hfor, hprovider⟩ := h.tickets exec' hold ticket ht
          exact ⟨hfor, List.mem_append_left _ hprovider⟩
        . obtain ⟨hfor, hprovider, -⟩ := h.ticket_resumed hmem hresumed ht
          exact ⟨hfor, hprovider⟩
      . intro exec' hexec' ticket refund content hpc
        rcases List.mem_or_eq_of_mem_set hexec' with hold | rfl
        . exact h.signing exec' hold ticket refund content hpc
        . have ht : (resume cfg s.now s.store exec.req exec.pc answer).pc.ticket? = some ticket := by
            simp only at hpc
            rw [hpc]
            rfl
          exact (h.ticket_resumed hmem hresumed ht).2.2 refund content hpc
  -- an exit only adds to the log
  | ingest exit slashing =>
    have hlog : Log.Justified (Follows cfg cMax) (s.step cfg (.ingest exit slashing)).events := by
      show Log.Justified (Follows cfg cMax)
        (s.events ++ .ingested exit :: (ingest s.store exit slashing).2)
      have hingested : Log.Justified (Follows cfg cMax) (s.events ++ [.ingested exit]) :=
        Log.justified_concat.mpr ⟨h.log, trivial⟩
      rw [← List.singleton_append, ← List.append_assoc]
      have hsound := ingest_sound s.store exit slashing
      generalize ingest s.store exit slashing = result at hsound
      cases hsound with
      | recorded => simpa using hingested
      | replayed => simpa using hingested
      | revealed => exact follows_slashEvents _ _ _ _ hingested
    refine ⟨h.priced, ?_, h.signing, hlog, hkept⟩
    intro exec hexec ticket ht
    obtain ⟨hfor, hprovider⟩ := h.tickets exec hexec ticket ht
    exact ⟨hfor, List.mem_append_left _ hprovider⟩
  | clock now => exact ⟨h.priced, h.tickets, h.signing, h.log, hkept⟩
  | cleanup => exact ⟨h.priced, h.tickets, h.signing, h.log, hkept⟩
  | crash =>
    refine ⟨?_, ?_, ?_, h.log, hkept⟩
    . intro exec hexec c hc
      obtain ⟨e, -, rfl⟩ := List.mem_map.mp hexec
      cases hpc : e.pc <;> simp [Pc.crash, hpc, Pc.cMax?] at hc
    . intro exec hexec ticket ht
      obtain ⟨e, -, rfl⟩ := List.mem_map.mp hexec
      cases hpc : e.pc <;> simp [Pc.crash, hpc, Pc.ticket?] at ht
    . intro exec hexec ticket refund content hsigning
      obtain ⟨e, -, rfl⟩ := List.mem_map.mp hexec
      cases hpc : e.pc <;> simp [Pc.crash, hpc] at hsigning

/-- A server that reads one C_MAX from the contract issues nothing above it. -/
theorem issued_run (rows : Map String StoredSignal) (actions : List Action)
    (hcMax : ∀ i c, Action.resume i (.matched (some c)) ∈ actions → c = cMax)
    : ((init rows).run cfg actions).Issued cfg cMax := by
  induction actions using List.reverseRecOn with
  | nil => exact Issued.init cfg cMax rows
  | append_singleton actions a ih =>
    rw [run_append]
    have hbefore := ih fun i c hmem => hcMax i c (List.mem_append_left _ hmem)
    exact hbefore.step fun i c ha => hcMax i c (by simp [ha])

theorem ticket_of_provider {now : Nat} {store : Store Kept} {req req' : LongjingRequestDto} {pc : Pc}
    {piece : Piece} (h : Resumed cfg now store req pc piece) (hprovider : .provider req' ∈ piece.events)
    : req' = req ∧ ∃ ticket, piece.pc.ticket? = some ticket := by
  have hslash (enabled : Bool) (existing signal : StoredSignal)
      : .provider req' ∉ slashEvents enabled existing signal := by
    unfold slashEvents
    cases slashRevealed enabled existing signal <;> simp
  cases h with
  | accept nullifier c answer slashing hverify hrecorded =>
    cases hrecorded with
    | revealed => simp [hslash] at hprovider
    | served => exact ⟨by simpa using hprovider, _, rfl⟩
    | _ => simp at hprovider
  | _ => simp at hprovider

/-- The requests that the provider was called for have their rows. -/
structure Serving (cfg : Config) (cMax : Nat) (s : State) : Prop where
  replayable : s.Replayable cfg cMax
  backed : ∀ req, .provider req ∈ s.events →
    ∃ nullifier signal, Backed cfg cMax s.store req nullifier signal

theorem Serving.init (cfg : Config) (cMax : Nat) (rows : Map String StoredSignal)
    : (Server.init rows).Serving cfg cMax where
  replayable := Replayable.init cfg cMax rows
  backed := by simp [Server.init]

theorem Serving.step {a : Action} (h : s.Serving cfg cMax)
    (ha : ∀ i c, a = .resume i (.matched (some c)) → c = cMax) : (s.step cfg a).Serving cfg cMax := by
  refine ⟨h.replayable.step ha, ?_⟩
  have hrows (key : String) (row : StoredSignal) (hrow : s.store.get key = some row)
      : (s.step cfg a).store.get key = some row := get_step hrow a
  -- rows are never changed or dropped
  have hold (req : LongjingRequestDto) (hmem : .provider req ∈ s.events)
      : ∃ nullifier signal, Backed cfg cMax (s.step cfg a).store req nullifier signal := by
    obtain ⟨nullifier, signal, hbacked⟩ := h.backed req hmem
    exact ⟨nullifier, signal, hbacked.mono hrows⟩
  cases a with
  | arrive req =>
    intro req' hmem
    obtain ⟨-, -, hevents, -⟩ := startRequest_spec s.now s.store req
    have hmem : .provider req' ∈ s.events ++ (startRequest s.now s.store req).events := hmem
    rw [hevents, List.append_nil] at hmem
    exact hold req' hmem
  | resume i answer =>
    cases hexec : s.execs[i]? with
    | none =>
      rw [step_resume_none hexec]
      exact h.backed
    | some exec =>
      intro req' hmem
      have hresumed := @resume_sound cfg s.now s.store exec.req exec.pc answer
      rw [step_resume hexec] at hold hmem ⊢
      rcases List.mem_append.mp hmem with hbefore | hnew
      . exact hold req' hbefore
      . obtain ⟨rfl, ticket, hticket⟩ := ticket_of_provider hresumed hnew
        exact ⟨_, _, h.replayable.backed (List.mem_of_getElem? hexec) hresumed hticket⟩
  | ingest exit slashing =>
    intro req' hmem
    have hsound := ingest_sound s.store exit slashing
    have hmem : .provider req' ∈ s.events ++ .ingested exit :: (ingest s.store exit slashing).2 := hmem
    generalize ingest s.store exit slashing = result at hsound hmem
    refine hold req' ?_
    cases hsound with
    | revealed existing =>
      unfold slashEvents at hmem
      cases hkey : slashRevealed slashing existing (storedSignal exit.signalX exit.signalY) <;>
        simpa [hkey] using hmem
    | _ => simpa using hmem
  | clock now => exact hold
  | cleanup => exact hold
  | crash => exact hold

end State
end Server
end Longjing
