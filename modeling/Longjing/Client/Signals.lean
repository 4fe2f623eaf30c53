import Longjing.Client.Owner

/-!
The signals that leave the client against the index each of them is made at: whether an owner ever
reveals two points of one line.
-/

namespace Longjing
namespace Client

open Accumulator

variable (tools : Tools)

/-- N = Poseidon(Poseidon(k, i)). -/
def nullifierAt (secretKey : F) (index : Int) : F :=
  tools.poseidon.sig1 (tools.poseidon.sig2 secretKey (index : F))

def NullifiersDiffer (secretKey : F) (n : Nat) : Prop :=
  ∀ i j : Nat, i ≤ n → j ≤ n → nullifierAt tools secretKey i = nullifierAt tools secretKey j → i = j

namespace Owner

/-- An exit that was proved at the next free index has this x. -/
def Agrees (o : Owner) (x : String) : Prop :=
  ∀ e ∈ o.emitted, e.exit = true → e.index = usedIndices o.note → e.x = x

/-- A new signal at the next free index has the x of the exits that were proved there. -/
def KeepsClaims (o : Owner) : Command → Prop
  | .request payload _ reads nonce _ => o.note.pending = none → reads.note.status = .active →
      o.Agrees (toString (payloadSignalX tools payload nonce))
  | .withdrawal _ reads => reads.note.status = .active → o.Agrees (toString reads.signalX)
  | .receive _ _ => True

structure Tracked (secretKey : F) (o : Owner) : Prop where
  key : o.note.secretKey = secretKey.val
  index : o.note.opening.index = o.accepted.length
  bound : usedIndices o.note ≤ 2 ^ 32
  nullifier : ∀ e ∈ o.emitted, e.nullifier = toString (nullifierAt tools secretKey e.index).val
  range : ∀ e ∈ o.emitted, 0 ≤ e.index ∧ e.index ≤ usedIndices o.note
  requests : ∀ e ∈ o.emitted, e.exit = false → e.index < usedIndices o.note
  pending : ∀ p, o.note.pending = some p → ∃ e ∈ o.emitted,
    e.index = o.note.opening.index ∧ e.x = p.body.signal.x ∧ e.nullifier = p.body.nullifier
  single : ∀ e ∈ o.emitted, ∀ e' ∈ o.emitted, e.index = e'.index → e.x = e'.x

variable {tools} {o : Owner} {secretKey : F}

theorem Tracked.index_nonneg (h : o.Tracked tools secretKey) : 0 ≤ o.note.opening.index := by
  rw [h.index]
  exact Int.natCast_nonneg _

theorem Tracked.used_le (h : o.Tracked tools secretKey) : usedIndices o.note ≤ o.accepted.length + 1 := by
  have hindex := h.index
  unfold usedIndices
  split <;> omega

theorem val_cast_index {i : Int} (hnonneg : 0 ≤ i) (hle : i ≤ 2 ^ 32) : ((i : F).val : Int) = i := by
  have hmodulus : 2 ^ 32 < FIELD_MODULUS := by decide
  exact eq_val_cast hnonneg (by omega)

theorem Tracked.cast_key (h : o.Tracked tools secretKey) : (o.note.secretKey : F) = secretKey := by
  rw [h.key, F.cast_val]

theorem Tracked.fresh_body (h : o.Tracked tools secretKey) {payload : String} {model : Option String}
    {reads : RequestReads} {nonce rerandomizer : Nat} {body : Server.RequestBody} {note : NoteFile}
    (hfresh : proveFresh tools o.note payload model reads nonce rerandomizer = some (body, note))
    : reads.note.status = .active
      ∧ note = { o.note with pending := some ⟨rerandomizer, body⟩ }
      ∧ body.nullifier = toString (nullifierAt tools secretKey o.note.opening.index).val
      ∧ body.signal.x = toString (payloadSignalX tools payload nonce)
      ∧ (o.note.opening.index : F).val < 2 ^ 32 := by
  obtain ⟨hactive, inputs, proof, out, hinputs, hprove, rfl, rfl⟩ := proveFresh_eq_some.mp hfresh
  obtain ⟨hfacts, rfl⟩ := Circuit.requestFacts_of (tools.request_sound hprove)
  unfold requestInputs at hinputs
  split at hinputs
  next =>
    obtain rfl := Option.some.inj hinputs
    refine ⟨hactive, rfl, ?_, rfl, hfacts.index_lt⟩
    unfold requestBody Circuit.RequestInputs.outputs nullifierAt
    rw [h.cast_key]
    rfl
  next => simp at hinputs

/-- A new signal at the next free index, after which that index counts as used if a request made it. -/
theorem Tracked.emit (h : o.Tracked tools secretKey) {note : NoteFile} {e : Emission}
    (hindex : e.index = usedIndices o.note)
    (hnullifier : e.nullifier = toString (nullifierAt tools secretKey e.index).val)
    (hagrees : o.Agrees e.x) (hkey : note.secretKey = o.note.secretKey)
    (hopening : note.opening = o.note.opening) (hused : usedIndices o.note ≤ usedIndices note)
    (hbound : usedIndices note ≤ 2 ^ 32) (hrequest : e.exit = false → e.index < usedIndices note)
    (hpending : ∀ p, note.pending = some p → ∃ e' ∈ e :: o.emitted,
      e'.index = o.note.opening.index ∧ e'.x = p.body.signal.x ∧ e'.nullifier = p.body.nullifier)
    : Tracked tools secretKey { o with note := note, emitted := e :: o.emitted } := by
  have hnew : ∀ e' ∈ o.emitted, e'.index = e.index → e'.x = e.x := by
    intro e' he' heq
    cases hexit : e'.exit with
    | true => exact hagrees e' he' hexit (heq.trans hindex)
    | false =>
      have hlt := h.requests e' he' hexit
      omega
  have hnonneg := h.index_nonneg
  have hle := index_le_usedIndices o.note
  refine ⟨hkey.trans h.key, by rw [hopening]; exact h.index, hbound, ?_, ?_, ?_, ?_, ?_⟩
  . intro e' he'
    rcases List.mem_cons.mp he' with rfl | he'
    . exact hnullifier
    . exact h.nullifier e' he'
  . intro e' he'
    rcases List.mem_cons.mp he' with rfl | he'
    . show 0 ≤ e'.index ∧ e'.index ≤ usedIndices note
      exact ⟨by omega, by omega⟩
    . obtain ⟨hfirst, hlast⟩ := h.range e' he'
      exact ⟨hfirst, Int.le_trans hlast hused⟩
  . intro e' he' hexit
    rcases List.mem_cons.mp he' with rfl | he'
    . exact hrequest hexit
    . exact Int.lt_of_lt_of_le (h.requests e' he' hexit) hused
  . rw [hopening]
    exact hpending
  . intro e₁ he₁ e₂ he₂ heq
    rcases List.mem_cons.mp he₁ with rfl | hold₁ <;> rcases List.mem_cons.mp he₂ with rfl | hold₂
    . rfl
    . exact (hnew e₂ hold₂ heq.symm).symm
    . exact hnew e₁ hold₁ heq
    . exact h.single e₁ hold₁ e₂ hold₂ heq

theorem tracked_start (secretKey : F) : (start secretKey).Tracked tools secretKey := by
  refine ⟨rfl, rfl, ?_, ?_, ?_, ?_, ?_, ?_⟩
  . show (0 : Int) + 0 ≤ 2 ^ 32
    decide
  all_goals simp [start, newNote]

theorem Tracked.again (h : o.Tracked tools secretKey) {p : Pending} (hpending : o.note.pending = some p)
    : Tracked tools secretKey
        { o with emitted := ⟨o.note.opening.index, false, p.body.nullifier, p.body.signal.x⟩ :: o.emitted } := by
  obtain ⟨e, he, hindex, hx, hnullifier⟩ := h.pending p hpending
  have hused := usedIndices_pending hpending
  have hnonneg := h.index_nonneg
  refine ⟨h.key, h.index, h.bound, ?_, ?_, ?_, ?_, ?_⟩
  . intro e' he'
    rcases List.mem_cons.mp he' with rfl | he'
    . have := h.nullifier e he
      rw [hindex, hnullifier] at this
      exact this
    . exact h.nullifier e' he'
  . intro e' he'
    rcases List.mem_cons.mp he' with rfl | he'
    . exact ⟨hnonneg, index_le_usedIndices _⟩
    . exact h.range e' he'
  . intro e' he' hexit
    rcases List.mem_cons.mp he' with rfl | he'
    . show o.note.opening.index < usedIndices o.note
      omega
    . exact h.requests e' he' hexit
  . intro p' hp'
    obtain ⟨e', he', hmatch⟩ := h.pending p' hp'
    exact ⟨e', List.mem_cons_of_mem _ he', hmatch⟩
  . -- the new emission stands for the one the body was first printed with
    have hsingle : ∀ e' ∈ o.emitted, e'.index = o.note.opening.index → e'.x = p.body.signal.x := by
      intro e' he' heq
      rw [← hx]
      exact h.single e' he' e he (heq.trans hindex.symm)
    intro e₁ he₁ e₂ he₂ heq
    rcases List.mem_cons.mp he₁ with rfl | hold₁ <;> rcases List.mem_cons.mp he₂ with rfl | hold₂
    . rfl
    . exact (hsingle e₂ hold₂ heq.symm).symm
    . exact hsingle e₁ hold₁ heq
    . exact h.single e₁ hold₁ e₂ hold₂ heq

theorem Tracked.step (h : o.Tracked tools secretKey) {c : Command} (hkeeps : o.KeepsClaims tools c)
    : (o.step tools c).Tracked tools secretKey := by
  have hstep := @step_sound tools o c
  generalize o.step tools c = o' at hstep ⊢
  cases hstep with
  | stay => exact h
  | again payload model reads nonce rerandomizer p hpending => exact h.again hpending
  | fresh payload model reads nonce rerandomizer body note hpending hfresh =>
    obtain ⟨hactive, rfl, hnullifier, hx, hlt⟩ := h.fresh_body hfresh
    have hused := usedIndices_free hpending
    have hbound := h.bound
    have hval := val_cast_index h.index_nonneg (by omega)
    have hnext : usedIndices { o.note with pending := some ⟨rerandomizer, body⟩ } = o.note.opening.index + 1 :=
      usedIndices_pending rfl
    refine h.emit hused.symm hnullifier ?_ rfl rfl (by omega) (by omega) (fun _ => ?_) ?_
    . rw [hx]
      exact hkeeps hpending hactive
    . rw [hnext]
      exact Int.lt_succ _
    . intro p hp
      obtain rfl := Option.some.inj hp
      exact ⟨_, List.mem_cons_self, rfl, rfl, rfl⟩
  | folded response key note hreceive =>
    obtain ⟨p, refund, signature, hpending, -, -, -, -, -, -, -, rfl⟩ := receive_eq_some.mp hreceive
    -- the index moves on as the pending request is folded, so nothing counts as used that did not
    have hused : usedIndices (foldResponse o.note key p.rerandomizer refund signature) = usedIndices o.note := by
      rw [usedIndices_pending hpending, usedIndices_free rfl]
      rfl
    refine ⟨h.key, ?_, ?_, h.nullifier, ?_, ?_, ?_, h.single⟩
    . simp only [foldResponse, List.length_cons, h.index, Nat.cast_add, Nat.cast_one]
    . rw [hused]
      exact h.bound
    . rw [hused]
      exact h.range
    . rw [hused]
      exact h.requests
    . intro p' hp'
      cases hp'
  | exited recipient reads args hprove =>
    obtain ⟨hactive, -, proof, out, hsettle, rfl⟩ := proveWithdrawal_eq_some.mp hprove
    have hfacts := Circuit.settlementFacts_of (tools.settlement_sound hsettle)
    refine h.emit rfl ?_ (hkeeps hactive) rfl rfl (Int.le_refl _) h.bound (fun hexit => by cases hexit) ?_
    . show toString out.nullifier.val = _
      rw [hfacts.nullifier_eq, nullifierAt, ← h.cast_key]
      rfl
    . intro p hp
      obtain ⟨e', he', hmatch⟩ := h.pending p hp
      exact ⟨e', List.mem_cons_of_mem _ he', hmatch⟩

theorem Tracked.x_eq (h : o.Tracked tools secretKey)
    (hdiffer : NullifiersDiffer tools secretKey (o.accepted.length + 1)) {e e' : Emission}
    (he : e ∈ o.emitted) (he' : e' ∈ o.emitted) (heq : e.nullifier = e'.nullifier) : e.x = e'.x := by
  apply h.single e he e' he'
  rw [h.nullifier e he, h.nullifier e' he'] at heq
  have hnullifier := ZMod.val_injective _ (Js.repr_injective heq)
  obtain ⟨hfirst, hlast⟩ := h.range e he
  obtain ⟨hfirst', hlast'⟩ := h.range e' he'
  have hused := h.used_le
  obtain ⟨i, hi⟩ := Int.eq_ofNat_of_zero_le hfirst
  obtain ⟨j, hj⟩ := Int.eq_ofNat_of_zero_le hfirst'
  rw [hi, hj] at hnullifier
  rw [hi, hj, hdiffer i j (by omega) (by omega) hnullifier]

theorem tracked_run {commands : List Command}
    (hkeeps : ∀ before c, before ++ [c] <+: commands → (run tools secretKey before).KeepsClaims tools c)
    : (run tools secretKey commands).Tracked tools secretKey := by
  induction commands using List.reverseRecOn with
  | nil => exact tracked_start secretKey
  | append_singleton before c ih =>
    rw [run_concat]
    apply Tracked.step
    . apply ih
      intro earlier c' hbegins
      exact hkeeps earlier c' (hbegins.trans (List.prefix_append before [c]))
    . exact hkeeps before c (List.prefix_refl _)

/-- In a run in which every new signal keeps to the exits that were proved at its index, a nullifier has
one x. -/
theorem run_oneSignal (tools : Tools) (secretKey : F) (commands : List Command)
    (hdiffer : NullifiersDiffer tools secretKey ((run tools secretKey commands).accepted.length + 1))
    (hkeeps : ∀ before c, before ++ [c] <+: commands → (run tools secretKey before).KeepsClaims tools c)
    : ∀ e ∈ (run tools secretKey commands).emitted, ∀ e' ∈ (run tools secretKey commands).emitted,
        e.nullifier = e'.nullifier → e.x = e'.x := by
  intro e he e' he' heq
  exact (tracked_run hkeeps).x_eq hdiffer he he' heq

end Owner

section Example

/-- What the owner reads for an exit to the address 2009. -/
def exitReads : ExitReads where
  note := ⟨1000000000000000000, 1700000000, 0, .active⟩
  cMax := signedDeployment.cMax
  signalX := Credits.withdrawalSignalX signedDeployment 2009
  key := signedKey

/-- An exit from the genesis accumulator, at the index 0 or 1. -/
theorem proveWithdrawal_claim {note : NoteFile} {claimedIndex : Option Int} (hsignature : note.signature = none)
    (hsignedBy : note.signedBy = none) (hopening : note.opening = ⟨0, 0, 0⟩)
    (hclaimed : claimedIndex.getD (usedIndices note) = 0 ∨ claimedIndex.getD (usedIndices note) = 1)
    : ∃ args, proveWithdrawal signedTools note 2009 claimedIndex exitReads = some args
        ∧ args.nullifier = (signedPoseidon.sig1 (signedPoseidon.sig2 (note.secretKey : F)
          (claimedIndex.getD (usedIndices note) : F))).val := by
  have hkey : exitKey note exitReads = signedKey := by
    unfold exitKey
    rw [hsignedBy]
    rfl
  have hprovable : Provable signedTools note (exitKey note exitReads) := by
    refine ⟨?_, ?_, Or.inr ?_⟩ <;> simp [accumulatorInputs, hsignature, hopening]
  generalize hn : claimedIndex.getD (usedIndices note) = n at hclaimed
  have hval : (n : F).val ≤ 1 := by
    rcases hclaimed with rfl | rfl
    . simp
    . rw [Int.cast_one, ZMod.val_one]
  obtain ⟨hsatisfied, -⟩ := @settlement_satisfied signedTools note exitReads 2009 1000000000000000000
    n (by rw [hkey]; exact onCurve_signedKey) hprovable (by decide) (by decide)
    (by simp [accumulatorInputs, hopening]) (Nat.lt_of_le_of_lt hval (by decide))
    (Nat.le_trans (Nat.mul_le_mul_right _ hval)
      (Nat.le_trans (show 1 * exitReads.cMax ≤ 1000000000000000000 by decide) (Nat.le_add_right _ _)))
  obtain ⟨proof, hproof⟩ := signedTools.settlement_complete hsatisfied
  subst hn
  refine ⟨_, proveWithdrawal_eq_some.mpr ⟨rfl, ?_, proof, _, hproof, rfl⟩, rfl⟩
  rw [hopening]
  rcases hclaimed with h | h
  . rw [h]
  . rw [h]
    decide

theorem proveWithdrawal_genesis {note : NoteFile} (hsignature : note.signature = none)
    (hsignedBy : note.signedBy = none) (hopening : note.opening = ⟨0, 0, 0⟩)
    : ∃ args, proveWithdrawal signedTools note 2009 none exitReads = some args
        ∧ args.nullifier
          = (signedPoseidon.sig1 (signedPoseidon.sig2 (note.secretKey : F) (usedIndices note : F))).val := by
  have hused : usedIndices note = 0 ∨ usedIndices note = 1 := by
    unfold usedIndices
    rw [hopening]
    split <;> simp
  exact proveWithdrawal_claim hsignature hsignedBy hopening hused

/-- The first request of the note, at the index 0. -/
theorem proveRequest_first
    : ∃ body, proveRequest signedTools (newNote 2) "hi" none signedReads 7 5
          = some (body, { newNote 2 with pending := some ⟨5, body⟩ })
        ∧ body.nullifier = toString (nullifierAt signedTools 2 0).val
        ∧ body.signal.x = toString (payloadSignalX signedTools "hi" 7) := by
  obtain ⟨inputs, proof, -, -, hfresh⟩ := proveFresh_signed secretKey_two
    (provable_genesis signedTools 2 signedKey) (by simp [accumulatorInputs, newNote]) "hi" 7 5
  obtain ⟨-, -, hnullifier, hx, -⟩ := (@Owner.tracked_start signedTools 2).fresh_body hfresh
  exact ⟨_, hfresh, hnullifier, hx⟩

namespace Owner

/-- An owner who proves an exit, and a request before the exit is mined, signs twice at the index 0. -/
theorem run_exit_request
    : ∃ e ∈ (run signedTools 2 [.withdrawal 2009 exitReads, firstRequest]).emitted,
        ∃ e' ∈ (run signedTools 2 [.withdrawal 2009 exitReads, firstRequest]).emitted,
          e.nullifier = e'.nullifier ∧ e.x ≠ e'.x := by
  obtain ⟨args, hargs, hnullifier⟩ :=
    proveWithdrawal_genesis (show (newNote 2).signature = none from rfl) rfl rfl
  obtain ⟨body, hrequest, hbody, hx⟩ := proveRequest_first
  have hexit : (start 2).step signedTools (.withdrawal 2009 exitReads)
      = ⟨newNote 2, [], [⟨0, true, toString args.nullifier, toString exitReads.signalX⟩]⟩ := by
    simp only [step, start, hargs]
    rfl
  have hrun : run signedTools 2 [.withdrawal 2009 exitReads, firstRequest]
      = ((start 2).step signedTools (.withdrawal 2009 exitReads)).step signedTools firstRequest := rfl
  rw [hrun, hexit]
  simp only [step, firstRequest, hrequest]
  refine ⟨_, List.mem_cons_self, _, List.mem_cons_of_mem _ List.mem_cons_self, ?_, ?_⟩
  . refine hbody.trans ?_
    rw [hnullifier]
    rfl
  . intro heq
    have hsignals : payloadSignalX signedTools "hi" 7 = exitReads.signalX :=
      Js.repr_injective (hx.symm.trans heq)
    exact absurd hsignals (show signedPoseidon.hash2
      21023094671860425355490264926124925764559694019428733141923896094461443340962 7
      ≠ exitReads.signalX by decide +kernel)

/-- With a request pending, an exit and the request again are at two indices. -/
theorem run_oneSignal_pending
    : (run signedTools 2 [firstRequest, .withdrawal 2009 exitReads, firstRequest]).emitted.map Emission.index
          = [0, 1, 0]
        ∧ ∀ e ∈ (run signedTools 2 [firstRequest, .withdrawal 2009 exitReads, firstRequest]).emitted,
          ∀ e' ∈ (run signedTools 2 [firstRequest, .withdrawal 2009 exitReads, firstRequest]).emitted,
            e.nullifier = e'.nullifier → e.x = e'.x := by
  obtain ⟨pending, -, hfirst⟩ := run_firstRequest
  obtain ⟨args, hargs, -⟩ := @proveWithdrawal_genesis { newNote 2 with pending := some pending } rfl rfl rfl
  have hexit : run signedTools 2 [firstRequest, .withdrawal 2009 exitReads]
      = ⟨{ newNote 2 with pending := some pending }, [],
          [⟨1, true, toString args.nullifier, toString exitReads.signalX⟩,
            ⟨0, false, pending.body.nullifier, pending.body.signal.x⟩]⟩ := by
    show (run signedTools 2 [firstRequest]).step signedTools (.withdrawal 2009 exitReads) = _
    rw [hfirst]
    simp only [step, hargs]
    rfl
  have hagain : run signedTools 2 [firstRequest, .withdrawal 2009 exitReads, firstRequest]
      = ⟨{ newNote 2 with pending := some pending }, [],
          [⟨0, false, pending.body.nullifier, pending.body.signal.x⟩,
            ⟨1, true, toString args.nullifier, toString exitReads.signalX⟩,
            ⟨0, false, pending.body.nullifier, pending.body.signal.x⟩]⟩ := by
    show (run signedTools 2 [firstRequest, .withdrawal 2009 exitReads]).step signedTools firstRequest = _
    rw [hexit]
    rfl
  refine ⟨by rw [hagain]; rfl, run_oneSignal signedTools 2 _ ?_ ?_⟩
  . rw [hagain]
    intro i j hi hj heq
    have hzero : nullifierAt signedTools 2 (0 : Nat) ≠ nullifierAt signedTools 2 (1 : Nat) := by
      show signedPoseidon.sig1 (signedPoseidon.sig2 2 _) ≠ signedPoseidon.sig1 (signedPoseidon.sig2 2 _)
      decide +kernel
    have hi : i = 0 ∨ i = 1 := by
      simp at hi
      omega
    have hj : j = 0 ∨ j = 1 := by
      simp at hj
      omega
    rcases hi with rfl | rfl <;> rcases hj with rfl | rfl
    . rfl
    . exact absurd heq hzero
    . exact absurd heq.symm hzero
    . rfl
  -- the claims are kept in each of the three prefixes of the run
  . intro before c hbegins
    rcases begins_cons hbegins with ⟨rfl, rfl⟩ | ⟨_, rfl, hsecond⟩
    . intro _ _ e he
      simp [start] at he
    rcases begins_cons hsecond with ⟨rfl, rfl⟩ | ⟨_, rfl, hthird⟩
    . intro _ e he hexits
      rw [hfirst] at he
      obtain rfl := List.mem_singleton.mp he
      cases hexits
    rcases begins_cons hthird with ⟨rfl, rfl⟩ | ⟨_, rfl, hnone⟩
    . intro hnone
      rw [hexit] at hnone
      cases hnone
    . simp at hnone

end Owner

end Example

end Client
end Longjing
