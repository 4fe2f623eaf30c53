import Longjing.Server.Lemmas.Slash

/-!
What the server can slash for: two signals that it saw. Unlike the exact account of slashing this asks
nothing of the requests.
-/

namespace Longjing
namespace Server

open Js Accumulator
open Blockchain (WithdrawalInitiated)

/-- Two signals at one nullifier give the key. -/
def Accused (events : List Event) (k : Int) : Prop :=
  ∃ sight ∈ sightings events, ∃ sight' ∈ sightings events,
    sight.nullifier = sight'.nullifier ∧ sight.x ≠ sight'.x
      ∧ slashRevealed true sight.stored sight'.stored = some k

theorem slash_mem_slashEvents {enabled : Bool} {existing signal : StoredSignal} {k : Int}
    (h : Event.slash k ∈ slashEvents enabled existing signal)
    : slashRevealed true existing signal = some k := by
  unfold slashEvents at h
  cases enabled with
  | false => simp [slashRevealed] at h
  | true => simpa using h

namespace State

variable {cfg : Config} {s t : State}

/-- Every row is a signal that was seen, and behind every slashing there are two. -/
structure Grounded (s : State) : Prop where
  rows : ∀ key signal, s.store.get key = some signal →
    ∃ sight ∈ sightings s.events, key = rowKey sight.nullifier ∧ signal = sight.stored
  slashes : ∀ k, Event.slash k ∈ s.events → Accused s.events k

theorem Grounded.append {new : List Event} (h : s.Grounded) (hevents : t.events = s.events ++ new)
    (hrows : ∀ key signal, t.store.get key = some signal → s.store.get key = some signal
      ∨ ∃ sight ∈ sightings new, key = rowKey sight.nullifier ∧ signal = sight.stored)
    (hslashes : ∀ k, Event.slash k ∈ new → ∃ existing, ∃ sight ∈ sightings new,
      s.store.get (rowKey sight.nullifier) = some existing ∧ existing.x ≠ sight.stored.x
        ∧ slashRevealed true existing sight.stored = some k)
    : t.Grounded := by
  have hold {sight : Sighting} (hsight : sight ∈ sightings s.events) : sight ∈ sightings t.events := by
    rw [hevents, sightings_append]
    exact List.mem_append_left _ hsight
  have hnew {sight : Sighting} (hsight : sight ∈ sightings new) : sight ∈ sightings t.events := by
    rw [hevents, sightings_append]
    exact List.mem_append_right _ hsight
  refine ⟨?_, ?_⟩
  . intro key signal hget
    rcases hrows key signal hget with hget | ⟨sight, hsight, hrest⟩
    . obtain ⟨sight, hsight, hrest⟩ := h.rows key signal hget
      exact ⟨sight, hold hsight, hrest⟩
    . exact ⟨sight, hnew hsight, hrest⟩
  . intro k hk
    rw [hevents] at hk
    rcases List.mem_append.mp hk with hk | hk
    . obtain ⟨sight, hsight, sight', hsight', hrest⟩ := h.slashes k hk
      exact ⟨sight, hold hsight, sight', hold hsight', hrest⟩
    . -- the row that was compared is a signal from before
      obtain ⟨existing, sight', hsight', hget, hne, hrecover⟩ := hslashes k hk
      obtain ⟨sight, hsight, hkey, rfl⟩ := h.rows _ existing hget
      exact ⟨sight, hold hsight, sight', hnew hsight', (rowKey_injective hkey).symm,
        fun heq => hne ((sight.stored_x_eq_iff sight').mpr heq), hrecover⟩

theorem Grounded.quiet {new : List Event} (h : s.Grounded) (hevents : t.events = s.events ++ new)
    (hrows : ∀ key, t.store.get key = s.store.get key) (hnone : ∀ k, Event.slash k ∉ new) : t.Grounded :=
  h.append hevents (fun key _ hget => .inl (hrows key ▸ hget)) (fun k hk => absurd hk (hnone k))

theorem Grounded.accepted {i : Nat} {exec : Exec} {nullifier : String} {cMax : Nat} {answer : VerifyAnswer}
    {slashing : Bool} {piece : Piece} (h : s.Grounded) (hnamed : s.Named) (hexec : s.execs[i]? = some exec)
    (hpc : exec.pc = .verifying nullifier cMax) (hverify : verify cfg exec.req cMax answer = .ok true)
    (hrecorded : Recorded s.now s.store exec.req nullifier cMax slashing piece)
    : (s.after i exec { piece with events := .accepted exec.req :: piece.events }).Grounded := by
  obtain ⟨signals⟩ := verify_eq_true hverify
  obtain ⟨-, -, hxdto, hydto, -⟩ := exec.req.isFieldElement
  have hkey : nullifier = rowKey signals.nullifier :=
    hnamed.rowKey_of_denotes (List.mem_of_getElem? hexec) hpc hverify (by simp [denotes_of_val signals.nullifier_eq])
  have hsight (later : List Event) : (⟨signals.nullifier, signals.signalX, signals.signalY⟩ : Sighting)
      ∈ sightings (.accepted exec.req :: later) :=
    List.mem_filterMap.mpr ⟨_, List.mem_cons_self, sighting_accepted signals⟩
  -- a signal that is read is the one of the proof
  have hread {x y : Int} (hx : parseFieldElement exec.req.signal.x = some x)
      (hy : parseFieldElement exec.req.signal.y = some y)
      : x = signals.signalX.val ∧ y = signals.signalY.val := by
    have hx' := (toBigInt_of_parse hxdto hx).1
    have hy' := (toBigInt_of_parse hydto hy).1
    rw [signals.signalX_eq, Option.some.injEq] at hx'
    rw [signals.signalY_eq, Option.some.injEq] at hy'
    exact ⟨hx'.symm, hy'.symm⟩
  subst hkey
  have hinsert (later : List Event) (key : String) (signal : StoredSignal)
      (hget : (s.store.insert (rowKey signals.nullifier)
        (storedSignal signals.signalX.val signals.signalY.val)).get key = some signal)
      : s.store.get key = some signal
        ∨ ∃ sight ∈ sightings (.accepted exec.req :: later), key = rowKey sight.nullifier ∧ signal = sight.stored := by
    rw [Store.get_insert, Option.or_eq_some_iff] at hget
    rcases hget with hget | ⟨-, hget⟩
    . exact .inl hget
    . split at hget <;> simp at hget
      next heq => exact .inr ⟨_, hsight later, heq, hget.symm⟩
  cases hrecorded with
  | unreadable => exact h.quiet rfl (fun _ => rfl) (by simp)
  | retried => exact h.quiet rfl (fun _ => rfl) (by simp)
  | revealed x y existing hx hy hget hne =>
    obtain ⟨rfl, rfl⟩ := hread hx hy
    refine h.append rfl (fun _ _ hget => .inl hget) ?_
    intro k hk
    have hk : Event.slash k ∈ slashEvents slashing existing (storedSignal signals.signalX.val signals.signalY.val) :=
      (List.mem_cons.mp hk).resolve_left (by simp)
    exact ⟨existing, _, hsight _, hget, hne, slash_mem_slashEvents hk⟩
  | served x y ax ay hx hy =>
    obtain ⟨rfl, rfl⟩ := hread hx hy
    exact h.append rfl (hinsert _) (by simp)
  | wasted x y hx hy =>
    obtain ⟨rfl, rfl⟩ := hread hx hy
    exact h.append rfl (hinsert _) (by simp)

theorem Grounded.ingest (h : s.Grounded) (exit : WithdrawalInitiated) (slashing : Bool) (hexit : Canonical exit)
    : (s.step cfg (.ingest exit slashing)).Grounded := by
  have hval {n : Nat} (hn : n < FIELD_MODULUS) : ((n : F).val : Int) = n := by rw [F.val_cast_of_lt hn]
  have hkey : toString (exit.nullifier : Int) = rowKey (exit.nullifier : F) := by
    rw [rowKey, hval hexit.nullifier]
  have hstored : storedSignal exit.signalX exit.signalY
      = Sighting.stored ⟨exit.nullifier, exit.signalX, exit.signalY⟩ := by
    rw [Sighting.stored, hval hexit.signalX, hval hexit.signalY]
  have hx : toString (exit.signalX : Int) = (Sighting.stored ⟨exit.nullifier, exit.signalX, exit.signalY⟩).x :=
    congrArg StoredSignal.x hstored
  have hsight (later : List Event) : (⟨exit.nullifier, exit.signalX, exit.signalY⟩ : Sighting)
      ∈ sightings (.ingested exit :: later) :=
    List.mem_filterMap.mpr ⟨_, List.mem_cons_self, rfl⟩
  show Grounded
    { s with
      store := (Server.ingest s.store exit slashing).1
      events := s.events ++ .ingested exit :: (Server.ingest s.store exit slashing).2 }
  have hingested := ingest_sound s.store exit slashing
  generalize Server.ingest s.store exit slashing = result at hingested
  cases hingested with
  | recorded hget =>
    refine h.append rfl ?_ (by simp)
    intro key signal hkept
    rw [Store.get_insert, Option.or_eq_some_iff] at hkept
    rcases hkept with hkept | ⟨-, hkept⟩
    . exact .inl hkept
    . split at hkept <;> simp at hkept
      next heq => exact .inr ⟨_, hsight _, heq.trans hkey, hkept.symm.trans hstored⟩
  | replayed => exact h.quiet rfl (fun _ => rfl) (by simp)
  | revealed existing hget hne =>
    refine h.append rfl (fun _ _ hget => .inl hget) ?_
    intro k hk
    have hk : Event.slash k ∈ slashEvents slashing existing (storedSignal exit.signalX exit.signalY) :=
      (List.mem_cons.mp hk).resolve_left (by simp)
    rw [hkey] at hget
    rw [hx] at hne
    rw [hstored] at hk
    exact ⟨existing, _, hsight _, hget, hne, slash_mem_slashEvents hk⟩

theorem Grounded.resume {i : Nat} {exec : Exec} {piece : Piece} (h : s.Grounded) (hnamed : s.Named)
    (hexec : s.execs[i]? = some exec) (hresumed : Resumed cfg s.now s.store exec.req exec.pc piece)
    : (s.after i exec piece).Grounded := by
  generalize hpc : exec.pc = pc at hresumed
  cases hresumed with
  | accept nullifier cMax answer slashing hverify hrecorded => exact h.accepted hnamed hexec hpc hverify hrecorded
  | sign => exact h.quiet rfl (fun _ => rfl) (by simp)
  | _ => exact h.quiet rfl (fun _ => rfl) (by simp)

theorem Grounded.step (h : s.Grounded) (hnamed : s.Named) (a : Action)
    (hexit : ∀ exit slashing, a = .ingest exit slashing → Canonical exit) : (s.step cfg a).Grounded := by
  cases a with
  | arrive req =>
    obtain ⟨hrows, -, hevents, -⟩ := startRequest_spec s.now s.store req
    refine h.quiet rfl (fun key => ?_) (by simp [hevents])
    simp only [State.step, Store.get, hrows]
  | resume i answer =>
    cases hexec : s.execs[i]? with
    | none =>
      rw [step_resume_none hexec]
      exact h
    | some exec =>
      rw [step_resume hexec]
      exact h.resume hnamed hexec (resume_sound exec.pc answer)
  | ingest exit slashing => exact h.ingest exit slashing (hexit exit slashing rfl)
  | clock now => exact ⟨h.rows, h.slashes⟩
  | cleanup => exact ⟨h.rows, h.slashes⟩
  | crash => exact ⟨h.rows, h.slashes⟩

/-- From an empty table, whoever sends requests: a key is only slashed for two signals with it. -/
theorem Grounded.run (cfg : Config) (actions : List Action)
    (hexit : ∀ exit slashing, .ingest exit slashing ∈ actions → Canonical exit)
    : ((Server.init []).run cfg actions).Grounded := by
  induction actions using List.reverseRecOn with
  | nil =>
    have hempty (key : String) : (State.run cfg (Server.init []) []).store.get key = none := rfl
    have hevents : (State.run cfg (Server.init []) []).events = [] := rfl
    refine ⟨?_, by simp [hevents]⟩
    intro key signal hget
    rw [hempty] at hget
    cases hget
  | append_singleton actions a ih =>
    rw [State.run_append]
    refine (ih fun exit slashing hmem => hexit exit slashing (List.mem_append_left _ hmem)).step
      ((Once.init 0 []).run actions).named a ?_
    rintro exit slashing rfl
    exact hexit exit slashing (by simp)

theorem ingested_resumed {now : Nat} {store : Store Kept} {req : LongjingRequestDto} {pc : Pc} {piece : Piece}
    (h : Resumed cfg now store req pc piece) (exit : WithdrawalInitiated) : Event.ingested exit ∉ piece.events := by
  cases h with
  | accept nullifier cMax answer slashing hverify hrecorded =>
    cases hrecorded with
    | revealed x y existing => simp [slashEvents]
    | _ => simp
  | _ => simp

theorem ingested_step (cfg : Config) (s : State) (a : Action) {exit : WithdrawalInitiated}
    (h : Event.ingested exit ∈ (s.step cfg a).events)
    : Event.ingested exit ∈ s.events ∨ ∃ slashing, a = .ingest exit slashing := by
  cases a with
  | arrive req =>
    obtain ⟨-, -, hevents, -⟩ := startRequest_spec s.now s.store req
    exact .inl (by simpa [State.step, hevents] using h)
  | resume i answer =>
    cases hexec : s.execs[i]? with
    | none =>
      rw [step_resume_none hexec] at h
      exact .inl h
    | some exec =>
      rw [step_resume hexec] at h
      exact .inl ((List.mem_append.mp h).resolve_right (ingested_resumed (resume_sound exec.pc answer) exit))
  | ingest exit' slashing =>
    have hevents : (s.step cfg (.ingest exit' slashing)).events
        = s.events ++ .ingested exit' :: (Server.ingest s.store exit' slashing).2 := rfl
    rw [hevents, List.mem_append, List.mem_cons] at h
    rcases h with h | h | h
    . exact .inl h
    . exact .inr ⟨slashing, by rw [Event.ingested.inj h]⟩
    . have hingested := ingest_sound s.store exit' slashing
      generalize Server.ingest s.store exit' slashing = result at hingested h
      cases hingested <;> simp [slashEvents] at h
  | _ => exact .inl h

theorem ingested_run (cfg : Config) (rows : Map String StoredSignal) (actions : List Action)
    {exit : WithdrawalInitiated} (h : Event.ingested exit ∈ ((Server.init rows).run cfg actions).events)
    : ∃ slashing, .ingest exit slashing ∈ actions := by
  induction actions using List.reverseRecOn with
  | nil => cases h
  | append_singleton actions a ih =>
    rw [State.run_append] at h
    rcases ingested_step cfg _ a h with hold | ⟨slashing, rfl⟩
    . obtain ⟨slashing, hmem⟩ := ih hold
      exact ⟨slashing, List.mem_append_left _ hmem⟩
    . exact ⟨slashing, by simp⟩

end State
end Server
end Longjing
