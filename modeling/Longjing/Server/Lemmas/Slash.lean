import Longjing.Server.Lemmas.Once

/-!
Slashing: a signal is compared with the first one recorded under its nullifier, whether a request or
an exit brought it.
-/

namespace Longjing
namespace Server

open Js Accumulator
open Blockchain (WithdrawalInitiated)

/-- A signal (x, y) at the nullifier N that reached the server. -/
structure Sighting where
  nullifier : F
  x : F
  y : F
deriving DecidableEq

namespace Sighting

def stored (sight : Sighting) : StoredSignal := storedSignal sight.x.val sight.y.val

def OnLine (line : F → F × F) (sight : Sighting) : Prop :=
  sight.y = (line sight.nullifier).1 + (line sight.nullifier).2 * sight.x

theorem stored_x_eq_iff (sight sight' : Sighting) : sight.stored.x = sight'.stored.x ↔ sight.x = sight'.x := by
  constructor
  . intro h
    have hval := toString_injective h
    rw [Int.natCast_inj] at hval
    exact ZMod.val_injective _ hval
  . intro h
    simp [stored, storedSignal, h]

theorem slashRevealed_stored {line : F → F × F} {first sight : Sighting} (hfirst : first.OnLine line)
    (hsight : sight.OnLine line) (hnullifier : first.nullifier = sight.nullifier) (hne : first.x ≠ sight.x)
    : slashRevealed true first.stored sight.stored = some ((line sight.nullifier).1.val : Int) := by
  unfold stored
  rw [slashRevealed_storedSignal]
  apply recoverSecretKey_of_line (a := (line sight.nullifier).2)
  . rw [OnLine, hnullifier] at hfirst
    simpa using hfirst
  . simpa [OnLine] using hsight
  . simpa using hne

end Sighting

def sighting? : Event → Option Sighting
  | .accepted req =>
    match toBigInt req.nullifier, toBigInt req.signal.x, toBigInt req.signal.y with
    | some n, some x, some y => some ⟨n, x, y⟩
    | _, _, _ => none
  | .ingested exit => some ⟨exit.nullifier, exit.signalX, exit.signalY⟩
  | _ => none

def sightings (events : List Event) : List Sighting := events.filterMap sighting?

def firstSeen (events : List Event) (N : F) : Option Sighting :=
  (sightings events).find? (·.nullifier = N)

def Event.isSlash : Event → Bool
  | .slashRevealed _ _ => true
  | .slash _ => true
  | _ => false

/-- Whether slashing is enabled, as far as the step asks. -/
def Action.slashing : Action → Bool
  | .resume _ (.verified _ slashing) => slashing
  | .ingest _ slashing => slashing
  | _ => true

/-- What is due for a signal: nothing if it is the first or has the first one's x, else `slashRevealed`
with both and, if slashing is enabled, `slash` with the note's key. -/
def slashesFor (key : F → F) (enabled : Bool) (seen : Option Sighting) (sight : Sighting) : List Event :=
  match seen with
  | none => []
  | some first =>
    if first.x = sight.x then
      []
    else
      .slashRevealed first.stored sight.stored
        :: (if enabled then [.slash ((key sight.nullifier).val : Int)] else [])

/-- The verifier of the contract accepts no other public signals. -/
structure Canonical (exit : WithdrawalInitiated) : Prop where
  nullifier : exit.nullifier < FIELD_MODULUS
  signalX : exit.signalX < FIELD_MODULUS
  signalY : exit.signalY < FIELD_MODULUS

/-- In each step of the run the slashing calls are the ones due; so two signals that differ at one
nullifier get the note slashed, and nothing else does. -/
structure SlashesExactly (key : F → F) (cfg : Config) (actions : List Action) : Prop where
  step : ∀ earlier a later, actions = earlier ++ a :: later → ∃ new,
    (((init []).run cfg earlier).step cfg a).events = ((init []).run cfg earlier).events ++ new
      ∧ new.filter Event.isSlash = (sightings new).flatMap fun sight =>
          slashesFor key a.slashing (firstSeen ((init []).run cfg earlier).events sight.nullifier) sight
  complete : (∀ a ∈ actions, a.slashing = true) →
    ∀ sight ∈ sightings ((init []).run cfg actions).events,
    ∀ sight' ∈ sightings ((init []).run cfg actions).events,
      sight.nullifier = sight'.nullifier → sight.x ≠ sight'.x →
      Event.slash ((key sight.nullifier).val : Int) ∈ ((init []).run cfg actions).events
  sound : ∀ k, Event.slash k ∈ ((init []).run cfg actions).events →
    ∃ sight ∈ sightings ((init []).run cfg actions).events,
    ∃ sight' ∈ sightings ((init []).run cfg actions).events,
      sight.nullifier = sight'.nullifier ∧ sight.x ≠ sight'.x ∧ k = ((key sight.nullifier).val : Int)

theorem rowKey_injective {N M : F} (h : rowKey N = rowKey M) : N = M := by
  have hval := toString_injective h
  rw [Int.natCast_inj] at hval
  exact ZMod.val_injective _ hval

@[simp]
theorem sightings_append (events new : List Event)
    : sightings (events ++ new) = sightings events ++ sightings new :=
  List.filterMap_append

theorem firstSeen_append (events new : List Event) (N : F)
    : firstSeen (events ++ new) N = (firstSeen events N).or (firstSeen new N) := by
  simp [firstSeen, List.find?_append]

theorem firstSeen_nullifier {events : List Event} {N : F} {sight : Sighting}
    (h : firstSeen events N = some sight) : sight ∈ sightings events ∧ sight.nullifier = N := by
  refine ⟨List.mem_of_find?_eq_some h, ?_⟩
  simpa using List.find?_some h

theorem firstSeen_isSome {events : List Event} {sight : Sighting} (h : sight ∈ sightings events)
    : (firstSeen events sight.nullifier).isSome = true := by
  rw [firstSeen, List.find?_isSome]
  exact ⟨sight, h, by simp⟩

namespace State

variable {cfg : Config} {s t : State} {N : F}

/-- What one step shows of a signal: nothing, the first at its nullifier, or another one. -/
inductive Sees (s t : State) (enabled : Bool) : Prop where
  | quiet (new : List Event)
    : t.events = s.events ++ new → sightings new = [] → new.filter Event.isSlash = [] →
      (∀ key, t.store.get key = s.store.get key) → Sees s t enabled
  | first (new : List Event) (sight : Sighting)
    : t.events = s.events ++ new → sightings new = [sight] → new.filter Event.isSlash = [] →
      s.store.get (rowKey sight.nullifier) = none →
      (∀ key, t.store.get key
        = (s.store.get key).or (if key = rowKey sight.nullifier then some sight.stored else none)) →
      Sees s t enabled
  | again (new : List Event) (sight : Sighting) (existing : StoredSignal)
    : t.events = s.events ++ new → sightings new = [sight] →
      s.store.get (rowKey sight.nullifier) = some existing →
      new.filter Event.isSlash
        = (if existing.x = sight.stored.x then [] else slashEvents enabled existing sight.stored) →
      (∀ key, t.store.get key = s.store.get key) → Sees s t enabled

/-- The signal of a request is bound to its payload before the proof is verified. -/
def Matched (cfg : Config) (s : State) : Prop :=
  ∀ exec ∈ s.execs, exec.pc.matched = true →
    signalXMatchesRequest cfg exec.req.signal.x exec.req.payload exec.req.nonce = true

/-- The table holds the first signal of each nullifier. -/
def Seen (s : State) : Prop :=
  ∀ N, s.store.get (rowKey N) = (firstSeen s.events N).map Sighting.stored

theorem Seen.of_sees {enabled : Bool} (h : s.Seen) (hsees : Sees s t enabled) : t.Seen := by
  intro N
  cases hsees with
  | quiet new hevents hnone _ hget =>
    rw [hget, h N, hevents, firstSeen_append, firstSeen, firstSeen, hnone]
    simp
  | first new sight hevents hsight _ hfree hget =>
    have hnew : firstSeen new N = if N = sight.nullifier then some sight else none := by
      rw [firstSeen, hsight, List.find?_singleton]
      simp [eq_comm]
    rw [hget, h N, hevents, firstSeen_append, hnew]
    by_cases hN : N = sight.nullifier
    . rw [hN, if_pos rfl, if_pos rfl]
      cases firstSeen s.events sight.nullifier <;> rfl
    . rw [if_neg (fun hkey => hN (rowKey_injective hkey)), if_neg hN, Option.or_none, Option.or_none]
  | again new sight existing hevents hsight hrow _ hget =>
    rw [hget, h N, hevents, firstSeen_append]
    -- a sighting at `N` is not the first one
    cases hseen : firstSeen s.events N with
    | some first => rfl
    | none =>
      have hne : sight.nullifier ≠ N := by
        intro hN
        rw [hN, h N, hseen] at hrow
        simp at hrow
      have hnew : firstSeen new N = none := by
        rw [firstSeen, hsight, List.find?_singleton]
        simp [hne]
      rw [hnew]
      rfl

theorem Matched.init (cfg : Config) (rows : Map String StoredSignal) : Matched cfg (init rows) := by
  intro exec hexec
  simp [Server.init] at hexec

theorem Matched.resumed {i : Nat} {exec : Exec} {piece : Piece} (h : Matched cfg s)
    (hexec : s.execs[i]? = some exec) (hresumed : Resumed cfg s.now s.store exec.req exec.pc piece)
    : Matched cfg (s.after i exec piece) := by
  intro e he hmatched
  rcases List.mem_or_eq_of_mem_set he with he | rfl
  . exact h e he hmatched
  . have hold := h exec (List.mem_of_getElem? hexec)
    generalize exec.pc = pc at hresumed hold
    cases hresumed with
    | stay => exact hold hmatched
    | pass _ _ _ hpass =>
      rcases hpass hmatched with hpass | hpass
      . exact hold hpass
      . exact hpass
    | accept nullifier cMax answer slashing hverify hrecorded => exact hold rfl
    | @keep _ pc' _ _ hticket _ => cases pc' <;> simp [Pc.matched, Pc.ticket?] at hmatched hticket
    | drop => simp [Pc.matched] at hmatched
    | sign => simp [Pc.matched] at hmatched

theorem Matched.step (h : Matched cfg s) (a : Action) : Matched cfg (s.step cfg a) := by
  cases a with
  | arrive req =>
    intro exec hexec hmatched
    rcases List.mem_append.mp hexec with hexec | hexec
    . exact h exec hexec hmatched
    . rw [List.mem_singleton] at hexec
      subst hexec
      rw [(startRequest_spec s.now s.store req).2.2.2.2.1] at hmatched
      contradiction
  | resume i answer =>
    cases hexec : s.execs[i]? with
    | none =>
      rw [step_resume_none hexec]
      exact h
    | some exec =>
      rw [step_resume hexec]
      exact h.resumed hexec (resume_sound exec.pc answer)
  | ingest exit slashing => exact h
  | clock now => exact h
  | cleanup => exact h
  | crash =>
    intro exec hexec hmatched
    obtain ⟨e, -, rfl⟩ := List.mem_map.mp hexec
    cases hpc : e.pc <;> simp [Pc.crash, hpc, Pc.matched] at hmatched

theorem parse_of_matched {req : LongjingRequestDto}
    (h : signalXMatchesRequest cfg req.signal.x req.payload req.nonce = true)
    : parseFieldElement req.signal.x ≠ none := by
  intro hnone
  simp [signalXMatchesRequest, hnone] at h

theorem parse_of_toBigInt {value : String} {a : F} (h : isFieldElement value = true)
    (hparse : parseFieldElement value ≠ none) (hbig : toBigInt value = some (a.val : Int))
    : parseFieldElement value = some (a.val : Int) := by
  obtain ⟨v, hv⟩ := Option.ne_none_iff_exists'.mp hparse
  obtain ⟨hv', -⟩ := toBigInt_of_parse h hv
  rw [hv, ← hv', hbig]

theorem filter_slashEvents (enabled : Bool) (existing signal : StoredSignal)
    : (slashEvents enabled existing signal).filter Event.isSlash = slashEvents enabled existing signal := by
  unfold slashEvents
  cases slashRevealed enabled existing signal <;> simp [Event.isSlash]

theorem sightings_slashEvents (enabled : Bool) (existing signal : StoredSignal)
    : sightings (slashEvents enabled existing signal) = [] := by
  unfold slashEvents
  cases slashRevealed enabled existing signal <;> simp [sightings, sighting?]

theorem sighting_accepted {req : LongjingRequestDto} {cMax : Nat} {answer : VerifyAnswer}
    (signals : VerifiedSignals cfg req cMax answer)
    : sighting? (.accepted req) = some ⟨signals.nullifier, signals.signalX, signals.signalY⟩ := by
  simp [sighting?, signals.nullifier_eq, signals.signalX_eq, signals.signalY_eq]

theorem exists_sighting {exec : Exec} {nullifier : String} {cMax : Nat} {answer : VerifyAnswer}
    (hnamed : s.Named) (hmatched : Matched cfg s) (hmem : exec ∈ s.execs)
    (hpc : exec.pc = .verifying nullifier cMax) (hread : isNegative exec.req.signal.y = false)
    (hverify : verify cfg exec.req cMax answer = .ok true)
    : ∃ sight, sighting? (.accepted exec.req) = some sight ∧ nullifier = rowKey sight.nullifier
        ∧ parseFieldElement exec.req.signal.x = some (sight.x.val : Int)
        ∧ parseFieldElement exec.req.signal.y = some (sight.y.val : Int) := by
  obtain ⟨signals⟩ := verify_eq_true hverify
  obtain ⟨-, -, hxdto, hydto, -⟩ := exec.req.isFieldElement
  refine ⟨_, sighting_accepted signals, ?_, ?_, ?_⟩
  . exact hnamed.rowKey_of_denotes hmem hpc hverify (by simp [denotes_of_val signals.nullifier_eq])
  . exact parse_of_toBigInt hxdto (parse_of_matched (hmatched exec hmem (by rw [hpc]; rfl)))
      signals.signalX_eq
  . refine parse_of_toBigInt hydto ?_ signals.signalY_eq
    obtain ⟨n, hn, -⟩ := parse_of_not_negative hydto hread
    rw [hn]
    simp

theorem sees_accepted {i : Nat} {exec : Exec} {nullifier : String} {cMax : Nat} {answer : VerifyAnswer}
    {slashing : Bool} {piece : Piece} (hnamed : s.Named) (hmatched : Matched cfg s)
    (hexec : s.execs[i]? = some exec) (hpc : exec.pc = .verifying nullifier cMax)
    (hread : isNegative exec.req.signal.y = false) (hverify : verify cfg exec.req cMax answer = .ok true)
    (hrecorded : Recorded s.now s.store exec.req nullifier cMax slashing piece)
    : Sees s (s.after i exec { piece with events := .accepted exec.req :: piece.events }) slashing := by
  obtain ⟨sight, hsight, rfl, hx, hy⟩ :=
    exists_sighting hnamed hmatched (List.mem_of_getElem? hexec) hpc hread hverify
  have hcons (new : List Event) : sightings (.accepted exec.req :: new) = sight :: sightings new :=
    List.filterMap_cons_some hsight
  cases hrecorded with
  | unreadable hnone =>
    rw [hx, hy] at hnone
    simp at hnone
  -- another x at a nullifier that has a row
  | revealed x y existing hx' hy' hget hne =>
    rw [hx, Option.some.injEq] at hx'
    rw [hy, Option.some.injEq] at hy'
    subst hx' hy'
    refine .again (.accepted exec.req :: slashEvents slashing existing sight.stored) sight existing rfl ?_
      hget ?_ (fun _ => rfl)
    . rw [hcons, sightings_slashEvents]
    . have hne : ¬ existing.x = sight.stored.x := hne
      rw [if_neg hne, List.filter_cons_of_neg (by simp [Event.isSlash]), filter_slashEvents]
  | retried x y existing outcome hx' hy' hget heq =>
    rw [hx, Option.some.injEq] at hx'
    subst hx'
    refine .again [.accepted exec.req] sight existing rfl (hcons []) hget ?_ (fun _ => rfl)
    have heq : existing.x = sight.stored.x := heq
    rw [if_pos heq]
    rfl
  | served x y ax ay hx' hy' hax hay hget =>
    rw [hx, Option.some.injEq] at hx'
    rw [hy, Option.some.injEq] at hy'
    subst hx' hy'
    exact .first [.accepted exec.req, .provider exec.req] sight rfl (hcons [.provider exec.req]) rfl hget
      (fun key => Store.get_insert _ _ _ key)
  -- the row is there, whatever becomes of the request
  | wasted x y hx' hy' hacc hget =>
    rw [hx, Option.some.injEq] at hx'
    rw [hy, Option.some.injEq] at hy'
    subst hx' hy'
    exact .first [.accepted exec.req] sight rfl (hcons []) rfl hget
      (fun key => Store.get_insert _ _ _ key)

theorem sees_resumed {i : Nat} {exec : Exec} {answer : Answer} (hnamed : s.Named)
    (hmatched : Matched cfg s) (hexec : s.execs[i]? = some exec)
    (hread : ∀ req, Event.accepted req ∈ (s.step cfg (.resume i answer)).events →
      isNegative req.signal.y = false)
    : Sees s (s.step cfg (.resume i answer)) (Action.resume i answer).slashing := by
  rw [step_resume hexec] at hread ⊢
  have hquiet {pc : Pc} {events : List Event} {store : Store Kept} (hsight : sightings events = [])
      (hslash : events.filter Event.isSlash = []) (hstore : store.nullifiers = s.store.nullifiers)
      : Sees s (s.after i exec ⟨store, pc, events⟩) (Action.resume i answer).slashing := by
    refine .quiet events rfl hsight hslash (fun key => ?_)
    simp only [State.after, Store.get, hstore]
  -- only the answer to the verification brings a signal
  cases hpc : exec.pc with
  | verifying nullifier cMax =>
    cases answer with
    | verified answer slashing =>
      rw [hpc] at hread
      simp only [resume, afterVerifying] at hread ⊢
      cases hverify : verify cfg exec.req cMax answer with
      | error e => exact hquiet rfl rfl rfl
      | ok valid =>
        cases valid with
        | false => exact hquiet rfl rfl rfl
        | true =>
          simp only [hverify] at hread
          refine sees_accepted hnamed hmatched hexec hpc (hread exec.req ?_) hverify (record_sound _ _ _)
          simp [State.after]
    | _ => exact hquiet rfl rfl rfl
  | refunding ticket =>
    cases answer with
    | signed ok => cases ok <;> exact hquiet rfl rfl rfl
    | _ => exact hquiet rfl rfl rfl
  | signing ticket refund content =>
    cases answer with
    | signed ok => cases ok <;> exact hquiet rfl rfl rfl
    | _ => exact hquiet rfl rfl rfl
  | _ => cases answer <;> exact hquiet rfl rfl rfl

theorem sees_ingest (exit : WithdrawalInitiated) (slashing : Bool) (hexit : Canonical exit)
    : Sees s (s.step cfg (.ingest exit slashing)) slashing := by
  have hval {n : Nat} (hn : n < FIELD_MODULUS) : ((n : F).val : Int) = n := by rw [F.val_cast_of_lt hn]
  have hkey : toString (exit.nullifier : Int) = rowKey (exit.nullifier : F) := by
    rw [rowKey, hval hexit.nullifier]
  have hstored : storedSignal exit.signalX exit.signalY
      = Sighting.stored ⟨exit.nullifier, exit.signalX, exit.signalY⟩ := by
    rw [Sighting.stored, hval hexit.signalX, hval hexit.signalY]
  have hx : toString (exit.signalX : Int)
      = (Sighting.stored ⟨exit.nullifier, exit.signalX, exit.signalY⟩).x :=
    congrArg StoredSignal.x hstored
  show Sees s
    { s with
      store := (ingest s.store exit slashing).1
      events := s.events ++ .ingested exit :: (ingest s.store exit slashing).2 } slashing
  have hingested := ingest_sound s.store exit slashing
  generalize ingest s.store exit slashing = result at hingested
  cases hingested with
  | recorded hget =>
    rw [hkey] at hget ⊢
    rw [hstored]
    exact .first [.ingested exit] ⟨exit.nullifier, exit.signalX, exit.signalY⟩ rfl rfl rfl hget
      (fun key => Store.get_insert _ _ _ key)
  | replayed existing hget heq =>
    rw [hkey] at hget
    rw [hx] at heq
    refine .again [.ingested exit] ⟨exit.nullifier, exit.signalX, exit.signalY⟩ existing rfl rfl hget ?_
      (fun _ => rfl)
    rw [if_pos heq]
    rfl
  | revealed existing hget hne =>
    rw [hkey] at hget
    rw [hx] at hne
    rw [hstored]
    refine .again (.ingested exit :: slashEvents slashing existing _)
      ⟨exit.nullifier, exit.signalX, exit.signalY⟩ existing rfl ?_ hget ?_ (fun _ => rfl)
    . rw [← List.singleton_append, sightings_append, sightings_slashEvents]
      rfl
    . rw [if_neg hne, List.filter_cons_of_neg (by simp [Event.isSlash]), filter_slashEvents]

theorem sees_step (a : Action) (hnamed : s.Named) (hmatched : Matched cfg s)
    (hexit : ∀ exit slashing, a = .ingest exit slashing → Canonical exit)
    (hread : ∀ req, Event.accepted req ∈ (s.step cfg a).events → isNegative req.signal.y = false)
    : Sees s (s.step cfg a) a.slashing := by
  cases a with
  | arrive req =>
    obtain ⟨hrows, -, hevents, -⟩ := startRequest_spec s.now s.store req
    refine .quiet [] ?_ rfl rfl (fun key => ?_)
    . simp [State.step, hevents]
    . simp only [State.step, Store.get, hrows]
  | resume i answer =>
    cases hexec : s.execs[i]? with
    | none =>
      rw [step_resume_none hexec]
      exact .quiet [] (List.append_nil _).symm rfl rfl (fun _ => rfl)
    | some exec => exact sees_resumed hnamed hmatched hexec hread
  | ingest exit slashing => exact sees_ingest exit slashing (hexit exit slashing rfl)
  | clock now => exact .quiet [] (List.append_nil _).symm rfl rfl (fun _ => rfl)
  | cleanup => exact .quiet [] (List.append_nil _).symm rfl rfl (fun _ => rfl)
  | crash => exact .quiet [] (List.append_nil _).symm rfl rfl (fun _ => rfl)

theorem events_step (cfg : Config) (s : State) (a : Action) : ∃ new, (s.step cfg a).events = s.events ++ new := by
  cases a with
  | arrive req => exact ⟨_, rfl⟩
  | resume i answer =>
    cases hexec : s.execs[i]? with
    | none =>
      rw [step_resume_none hexec]
      exact ⟨[], (List.append_nil _).symm⟩
    | some exec =>
      rw [step_resume hexec]
      exact ⟨_, rfl⟩
  | ingest exit slashing => exact ⟨_, rfl⟩
  | clock now => exact ⟨[], (List.append_nil _).symm⟩
  | cleanup => exact ⟨[], (List.append_nil _).symm⟩
  | crash => exact ⟨[], (List.append_nil _).symm⟩

theorem events_run (cfg : Config) (s : State) (actions : List Action)
    : ∃ new, (s.run cfg actions).events = s.events ++ new := by
  induction actions generalizing s with
  | nil => exact ⟨[], (List.append_nil _).symm⟩
  | cons a actions ih =>
    obtain ⟨new, hnew⟩ := events_step cfg s a
    obtain ⟨later, hlater⟩ := ih (s.step cfg a)
    refine ⟨new ++ later, ?_⟩
    rw [← List.append_assoc, ← hnew]
    exact hlater

/-- The assumptions on the signals of a run, over its whole log. -/
structure Fair (line : F → F × F) (s : State) : Prop where
  onLine : ∀ sight ∈ sightings s.events, sight.OnLine line
  readable : ∀ req, Event.accepted req ∈ s.events → isNegative req.signal.y = false

theorem Fair.of_append {line : F → F × F} {new : List Event} (h : Fair line t)
    (hevents : t.events = s.events ++ new) : Fair line s where
  onLine := by
    intro sight hsight
    refine h.onLine sight ?_
    rw [hevents, sightings_append]
    exact List.mem_append_left _ hsight
  readable := by
    intro req hreq
    refine h.readable req ?_
    rw [hevents]
    exact List.mem_append_left _ hreq

theorem slashes_of_sees {line : F → F × F} {enabled : Bool} (hseen : s.Seen) (hfair : Fair line t)
    (hsees : Sees s t enabled)
    : ∃ new, t.events = s.events ++ new ∧ new.filter Event.isSlash = (sightings new).flatMap fun sight =>
        slashesFor (fun N => (line N).1) enabled (firstSeen s.events sight.nullifier) sight := by
  cases hsees with
  | quiet new hevents hnone hslash _ =>
    refine ⟨new, hevents, ?_⟩
    rw [hnone, hslash]
    rfl
  | first new sight hevents hsight hslash hfree _ =>
    refine ⟨new, hevents, ?_⟩
    rw [hseen, Option.map_eq_none_iff] at hfree
    rw [hsight, hslash, List.flatMap_singleton, hfree]
    rfl
  | again new sight existing hevents hsight hrow hslash _ =>
    refine ⟨new, hevents, ?_⟩
    rw [hseen, Option.map_eq_some_iff] at hrow
    obtain ⟨first, hfirst, rfl⟩ := hrow
    rw [hsight, hslash, List.flatMap_singleton, hfirst]
    unfold slashesFor
    simp only [Sighting.stored_x_eq_iff]
    split
    next => rfl
    next hne =>
      obtain ⟨hmem, hnullifier⟩ := firstSeen_nullifier hfirst
      have hline := hfair.onLine
      rw [hevents, sightings_append] at hline
      have hsight' : sight.OnLine line := hline sight (by simp [hsight])
      have hfirst' : first.OnLine line := hline first (List.mem_append_left _ hmem)
      cases enabled with
      | false => rfl
      | true =>
        rw [slashEvents, Sighting.slashRevealed_stored hfirst' hsight' hnullifier hne]
        rfl

/-- Signals that differ from the first at their nullifier got the note slashed. -/
def Complete (line : F → F × F) (s : State) : Prop :=
  ∀ sight ∈ sightings s.events, ∀ first, firstSeen s.events sight.nullifier = some first →
    first.x ≠ sight.x → Event.slash ((line sight.nullifier).1.val : Int) ∈ s.events

def Sound (line : F → F × F) (s : State) : Prop :=
  ∀ k, Event.slash k ∈ s.events → ∃ sight ∈ sightings s.events, ∃ sight' ∈ sightings s.events,
    sight.nullifier = sight'.nullifier ∧ sight.x ≠ sight'.x
      ∧ k = ((line sight.nullifier).1.val : Int)

theorem Sound.of_slashes {line : F → F × F} {enabled : Bool} {new : List Event} (h : Sound line s)
    (hevents : t.events = s.events ++ new)
    (hslash : new.filter Event.isSlash = (sightings new).flatMap fun sight =>
      slashesFor (fun N => (line N).1) enabled (firstSeen s.events sight.nullifier) sight)
    : Sound line t := by
  intro k hk
  rw [hevents] at hk ⊢
  rw [sightings_append]
  rcases List.mem_append.mp hk with hk | hk
  . obtain ⟨sight, hsight, sight', hsight', hrest⟩ := h k hk
    exact ⟨sight, List.mem_append_left _ hsight, sight', List.mem_append_left _ hsight', hrest⟩
  . have hmem : Event.slash k ∈ new.filter Event.isSlash := List.mem_filter.mpr ⟨hk, rfl⟩
    rw [hslash, List.mem_flatMap] at hmem
    obtain ⟨sight, hsight, hmem⟩ := hmem
    unfold slashesFor at hmem
    cases hfirst : firstSeen s.events sight.nullifier with
    | none =>
      rw [hfirst] at hmem
      simp at hmem
    | some first =>
      obtain ⟨hold, hnullifier⟩ := firstSeen_nullifier hfirst
      rw [hfirst] at hmem
      simp only at hmem
      split at hmem
      . simp at hmem
      next hne =>
        have hk : k = ((line sight.nullifier).1.val : Int) := by
          cases enabled <;> simp at hmem
          exact hmem
        exact ⟨sight, List.mem_append_right _ hsight, first, List.mem_append_left _ hold,
          hnullifier.symm, fun heq => hne heq.symm, hk⟩

theorem Complete.of_sees {line : F → F × F} (h : Complete line s) (hseen : s.Seen) (hfair : Fair line t)
    (hsees : Sees s t true) : Complete line t := by
  obtain ⟨new, hevents, hslash⟩ := slashes_of_sees hseen hfair hsees
  intro sight hsight first hfirst hne
  rw [hevents, firstSeen_append] at hfirst
  rw [hevents] at hsight ⊢
  rw [sightings_append] at hsight
  rcases List.mem_append.mp hsight with hold | hnew
  . -- the first signal at this nullifier was there before
    obtain ⟨first', hfirst'⟩ := Option.isSome_iff_exists.mp (firstSeen_isSome hold)
    rw [hfirst', Option.some_or, Option.some.injEq] at hfirst
    exact List.mem_append_left _ (h sight hold first (hfirst ▸ hfirst') hne)
  . cases hold : firstSeen s.events sight.nullifier with
    | some first' =>
      rw [hold, Option.some_or, Option.some.injEq] at hfirst
      subst hfirst
      have hmem : Event.slash ((line sight.nullifier).1.val : Int) ∈ new.filter Event.isSlash := by
        rw [hslash, List.mem_flatMap]
        refine ⟨sight, hnew, ?_⟩
        rw [hold, slashesFor, if_neg hne]
        simp
      exact List.mem_append_right _ (List.mem_filter.mp hmem).1
    | none =>
      -- a step shows one signal at most, so this is the first one
      rw [hold, Option.none_or] at hfirst
      have hone : sightings new = [sight] := by
        cases hsees with
        | quiet new' hevents' hsight' =>
          rw [hevents, List.append_cancel_left_eq] at hevents'
          rw [hevents', hsight'] at hnew
          simp at hnew
        | first new' sight' hevents' hsight' =>
          rw [hevents, List.append_cancel_left_eq] at hevents'
          rw [hevents', hsight', List.mem_singleton] at hnew
          rw [hevents', hsight', hnew]
        | again new' sight' _ hevents' hsight' =>
          rw [hevents, List.append_cancel_left_eq] at hevents'
          rw [hevents', hsight', List.mem_singleton] at hnew
          rw [hevents', hsight', hnew]
      rw [firstSeen, hone] at hfirst
      simp at hfirst
      exact absurd (congrArg Sighting.x hfirst.symm) hne

/-- What holds all along a run. -/
structure Watched (line : F → F × F) (cfg : Config) (s : State) : Prop where
  once : Once 0 s
  matched : Matched cfg s
  seen : s.Seen
  sound : Sound line s

theorem Watched.init (line : F → F × F) (cfg : Config) : Watched line cfg (init []) where
  once := .init 0 []
  matched := .init cfg []
  seen := fun N => rfl
  sound := by
    intro k hk
    simp [Server.init] at hk

theorem Watched.sees {line : F → F × F} (h : Watched line cfg s) (a : Action)
    (hexit : ∀ exit slashing, a = .ingest exit slashing → Canonical exit)
    (hfair : Fair line (s.step cfg a)) : Sees s (s.step cfg a) a.slashing :=
  sees_step a h.once.named h.matched hexit hfair.readable

theorem Watched.step {line : F → F × F} (h : Watched line cfg s) (a : Action)
    (hexit : ∀ exit slashing, a = .ingest exit slashing → Canonical exit)
    (hfair : Fair line (s.step cfg a)) : Watched line cfg (s.step cfg a) := by
  have hsees := h.sees a hexit hfair
  obtain ⟨new, hevents, hslash⟩ := slashes_of_sees h.seen hfair hsees
  exact ⟨h.once.step a, h.matched.step a, h.seen.of_sees hsees, h.sound.of_slashes hevents hslash⟩

theorem Watched.run {line : F → F × F} (h : Watched line cfg s) (actions : List Action)
    (hexit : ∀ exit slashing, .ingest exit slashing ∈ actions → Canonical exit)
    (hfair : Fair line (s.run cfg actions))
    : Watched line cfg (s.run cfg actions)
      ∧ ((∀ a ∈ actions, a.slashing = true) → Complete line s → Complete line (s.run cfg actions)) := by
  induction actions generalizing s with
  | nil => exact ⟨h, fun _ hcomplete => hcomplete⟩
  | cons a actions ih =>
    obtain ⟨later, hlater⟩ := events_run cfg (s.step cfg a) actions
    have hfair' : Fair line (s.step cfg a) := hfair.of_append hlater
    have hexit' (exit : WithdrawalInitiated) (slashing : Bool) (ha : a = .ingest exit slashing)
        : Canonical exit :=
      hexit exit slashing (ha ▸ List.mem_cons_self)
    obtain ⟨hwatched, hcomplete⟩ := ih (h.step a hexit' hfair')
      (fun exit slashing hmem => hexit exit slashing (List.mem_cons_of_mem _ hmem)) hfair
    refine ⟨hwatched, fun henabled hs => hcomplete (fun b hb => henabled b (List.mem_cons_of_mem _ hb)) ?_⟩
    have hsees := h.sees a hexit' hfair'
    rw [henabled a List.mem_cons_self] at hsees
    exact hs.of_sees h.seen hfair' hsees

end State

/-- Where no verified request writes its `signal.y` as a negative decimal, exactly the notes with two
signals at one nullifier are slashed. -/
theorem run_slashesExactly (cfg : Config) (line : F → F × F) (actions : List Action)
    (hexits : ∀ exit slashing, .ingest exit slashing ∈ actions → Canonical exit)
    (hline : ∀ sight ∈ sightings ((init []).run cfg actions).events, sight.OnLine line)
    (hreadable : ∀ req, Event.accepted req ∈ ((init []).run cfg actions).events →
      isNegative req.signal.y = false)
    : SlashesExactly (fun N => (line N).1) cfg actions := by
  have hfair : State.Fair line ((init []).run cfg actions) := ⟨hline, hreadable⟩
  obtain ⟨hwatched, hcomplete⟩ := (State.Watched.init line cfg).run actions hexits hfair
  refine ⟨?_, ?_, hwatched.sound⟩
  . rintro earlier a later rfl
    rw [State.run_append] at hfair
    obtain ⟨new, hnew⟩ := State.events_run cfg (((init []).run cfg earlier).step cfg a) later
    have hfair' : State.Fair line (((init []).run cfg earlier).step cfg a) := hfair.of_append hnew
    obtain ⟨new', hnew'⟩ := State.events_step cfg ((init []).run cfg earlier) a
    obtain ⟨hearlier, -⟩ := (State.Watched.init line cfg).run earlier
      (fun exit slashing hmem => hexits exit slashing (List.mem_append_left _ hmem))
      (hfair'.of_append hnew')
    have hsees := hearlier.sees a
      (fun exit slashing ha => hexits exit slashing (by simp [ha])) hfair'
    exact State.slashes_of_sees hearlier.seen hfair' hsees
  . intro henabled sight hsight sight' hsight' hnullifier hne
    have hall := hcomplete henabled (by intro sight hsight; simp [sightings, Server.init] at hsight)
    obtain ⟨first, hfirst⟩ := Option.isSome_iff_exists.mp (firstSeen_isSome hsight)
    by_cases hx : first.x = sight.x
    . rw [hnullifier] at hfirst ⊢
      exact hall sight' hsight' first hfirst (fun heq => hne (hx.symm.trans heq))
    . exact hall sight hsight first hfirst hx

section Example

/-- The exit of that note at index 0. -/
def exampleExit : WithdrawalInitiated where
  nullifier := exampleNullifier
  signalX := 15053395537674188633452508100657525434584218737162421564314564483827590723390
  signalY := 5284877403298675834477966078968284594586190544372127261197762783812443364602

/-- `y = k + a x` for the key 1, with `a = Poseidon(1, 0)`. -/
def exampleLine (_ : F) : F × F :=
  (1, 18423194802802147121294641945063302532319431080857859605204660473644265519999)

/-- The exit is ingested, then the request is verified. -/
def exampleRun (req : LongjingRequestDto) : List Action :=
  [.ingest exampleExit true, .arrive req, .resume 0 (.matched (some 10)), .resume 0 (.cost (some 1)),
    .resume 0 (.verified ⟨true, false, some fun _ => true⟩ true)]

/-- The same field element as a negative decimal. -/
def negativeRequest : LongjingRequestDto where
  toRequestBody := exampleBody
    "-16929429662533905167089919289121996195956995179624515959023099837557822589696"
  valid := by decide +kernel

def exampleSightings : List Sighting :=
  [⟨exampleNullifier, exampleExit.signalX, exampleExit.signalY⟩,
    ⟨exampleNullifier, exampleX, exampleY⟩]

theorem exampleSightings_onLine : ∀ sight ∈ exampleSightings, sight.OnLine exampleLine := by
  unfold Sighting.OnLine
  decide +kernel

def Event.isReadable : Event → Bool
  | .accepted req => !isNegative req.signal.y
  | _ => true

theorem sightings_record (now : Nat) (store : Store Kept) (req : LongjingRequestDto) (nullifier : String)
    (cMax : Nat) (slashing : Bool)
    : sightings (record now store req nullifier cMax slashing).events = []
      ∧ (record now store req nullifier cMax slashing).events.all Event.isReadable = true := by
  have hrecorded : Recorded now store req nullifier cMax slashing
      (record now store req nullifier cMax slashing) := record_sound _ _ _
  generalize record now store req nullifier cMax slashing = piece at hrecorded
  cases hrecorded with
  | revealed x y existing =>
    refine ⟨State.sightings_slashEvents _ _ _, ?_⟩
    unfold slashEvents
    cases slashRevealed slashing existing (storedSignal x y) <;> simp [Event.isReadable]
  | unreadable => exact ⟨rfl, rfl⟩
  | retried => exact ⟨rfl, rfl⟩
  | served => exact ⟨rfl, rfl⟩
  | wasted => exact ⟨rfl, rfl⟩

theorem exampleRun_events (req : LongjingRequestDto) (signalY : String)
    (hreq : req.toRequestBody = exampleBody signalY) (hy : toBigInt signalY = some (exampleY : Int))
    : ∃ store : Store Kept,
        ((init []).run exampleConfig (exampleRun req)).events
            = .ingested exampleExit :: .accepted req
              :: (record 0 store req (toString (exampleNullifier : Int)) 10 true).events := by
  have hn : parseFieldElement req.nullifier = some (exampleNullifier : Int) := by
    rw [hreq]
    exact (readers_repr (by decide +kernel)).1
  have hbound : signalXMatchesRequest exampleConfig req.signal.x req.payload req.nonce = true := by
    rw [hreq]
    exact example_bound signalY
  have hmodel : CLAUDE_MODELS.contains (req.model.getD DEFAULT_CLAUDE_MODEL) = true := by
    rw [hreq]
    show CLAUDE_MODELS.contains DEFAULT_CLAUDE_MODEL = true
    decide
  have hverify : verify exampleConfig req 10 ⟨true, false, some fun _ => true⟩ = .ok true :=
    example_verify req signalY hreq hy rfl
  have hallowed : (((init []).step exampleConfig (.ingest exampleExit true)).store.checkRateLimit 0
      (toString (exampleNullifier : Int))).2 = true :=
    Store.checkRateLimit_fresh 0 rfl
  have hrun := State.run_to_record true rfl hn hallowed hbound (by decide : 1 ≤ 10) hverify hmodel
  exact ⟨_, congrArg State.events hrun⟩

theorem example_sighting (req : LongjingRequestDto) (signalY : String)
    (hreq : req.toRequestBody = exampleBody signalY) (hy : toBigInt signalY = some (exampleY : Int))
    : sighting? (.accepted req) = some ⟨exampleNullifier, exampleX, exampleY⟩ := by
  have hn : toBigInt req.nullifier = some (exampleNullifier : Int) := by
    rw [hreq]
    exact (readers_repr (by decide +kernel)).2
  have hx : toBigInt req.signal.x = some (exampleX : Int) := by
    rw [hreq]
    exact (readers_repr (by decide +kernel)).2
  have hy' : toBigInt req.signal.y = some (exampleY : Int) := by
    rw [hreq]
    exact hy
  simp [sighting?, hn, hx, hy']

theorem exampleRequest_events
    : sightings ((init []).run exampleConfig (exampleRun exampleRequest)).events = exampleSightings
      ∧ ((init []).run exampleConfig (exampleRun exampleRequest)).events.all Event.isReadable = true := by
  obtain ⟨store, hevents⟩ := exampleRun_events exampleRequest _ rfl example_signalY_readers.2
  obtain ⟨hsightings, hreadable⟩ :=
    sightings_record 0 store exampleRequest (toString (exampleNullifier : Int)) 10 true
  have hneg : isNegative exampleRequest.signal.y = false := by decide +kernel
  have hsight := example_sighting exampleRequest _ rfl example_signalY_readers.2
  rw [hevents]
  constructor
  . have hexit : sighting? (.ingested exampleExit)
        = some ⟨exampleNullifier, exampleExit.signalX, exampleExit.signalY⟩ := rfl
    rw [sightings, List.filterMap_cons_some hexit, List.filterMap_cons_some hsight]
    unfold sightings at hsightings
    rw [hsightings]
    rfl
  . rw [List.all_cons, List.all_cons, hreadable]
    simp [Event.isReadable, hneg]

theorem negativeRequest_events
    : sightings ((init []).run exampleConfig (exampleRun negativeRequest)).events = exampleSightings
      ∧ ((init []).run exampleConfig (exampleRun negativeRequest)).events.all (!Event.isSlash ·) = true := by
  have hread : isNegative negativeRequest.signal.y = true
      ∧ toBigInt negativeRequest.signal.y = some (exampleY : Int) := by
    decide +kernel
  obtain ⟨store, hevents⟩ := exampleRun_events negativeRequest _ rfl hread.2
  have hparse := parse_of_negative negativeRequest.isFieldElement.2.2.2.1 hread.1
  have hrecord : (record 0 store negativeRequest (toString (exampleNullifier : Int)) 10 true).events = [] := by
    unfold record
    split
    next hy => simp [hparse] at hy
    next => rfl
  have hsight := example_sighting negativeRequest _ rfl hread.2
  rw [hevents, hrecord]
  constructor
  . have hexit : sighting? (.ingested exampleExit)
        = some ⟨exampleNullifier, exampleExit.signalX, exampleExit.signalY⟩ := rfl
    rw [sightings, List.filterMap_cons_some hexit, List.filterMap_cons_some hsight]
    rfl
  . rfl

theorem run_slashesExactly_example : SlashesExactly (fun _ => 1) exampleConfig (exampleRun exampleRequest) := by
  obtain ⟨hsightings, hall⟩ := exampleRequest_events
  refine run_slashesExactly exampleConfig exampleLine (exampleRun exampleRequest) ?_ ?_ ?_
  . intro exit slashing hmem
    have hexit : exit = exampleExit := by
      simp [exampleRun] at hmem
      exact hmem.1
    rw [hexit]
    exact ⟨by decide +kernel, by decide +kernel, by decide +kernel⟩
  . rw [hsightings]
    exact exampleSightings_onLine
  . intro req hreq
    simpa [Event.isReadable] using List.all_eq_true.mp hall _ hreq

/-- An exit and a verified request at one nullifier on one line, and no slash. -/
theorem negative_signal_not_slashed
    : (∀ sight ∈ sightings ((init []).run exampleConfig (exampleRun negativeRequest)).events,
        sight.OnLine exampleLine)
      ∧ ¬ SlashesExactly (fun _ => 1) exampleConfig (exampleRun negativeRequest) := by
  obtain ⟨hsightings, hnone⟩ := negativeRequest_events
  refine ⟨?_, fun h => ?_⟩
  . rw [hsightings]
    exact exampleSightings_onLine
  . have hslash := h.complete (by simp [exampleRun, Action.slashing])
      ⟨exampleNullifier, exampleExit.signalX, exampleExit.signalY⟩ (by rw [hsightings]; simp [exampleSightings])
      ⟨exampleNullifier, exampleX, exampleY⟩
      (by rw [hsightings]; simp [exampleSightings]) rfl (by decide +kernel)
    exact absurd (List.all_eq_true.mp hnone _ hslash) (by simp [Event.isSlash])

end Example

end Server
end Longjing
