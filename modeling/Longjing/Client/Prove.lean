import Longjing.Circuit.Membership
import Longjing.Client.Note

/-!
The inputs that the client builds against the constraints of the circuits.
-/

namespace Longjing
namespace Client

open Accumulator
open Circuit (RequestFacts RequestInputs pathSignals selectors two_pow_le)
open Credits (Deployment EdDSAPublicKey Deposited Leaves TREE_DEPTH Tree getMerkleProof leafAt)

variable {tools : Tools} {note : NoteFile}

theorem accumulatorInputs_genesis (h : note.signature = none)
    : (accumulatorInputs note).isGenesis = 1 ∧ (accumulatorInputs note).signatureR8x = 0
      ∧ (accumulatorInputs note).signatureR8y = 1 ∧ (accumulatorInputs note).signatureS = 0 := by
  simp [accumulatorInputs, h]

theorem accumulatorInputs_signed {signature : Signature} (h : note.signature = some signature)
    : (accumulatorInputs note).isGenesis = 0
      ∧ (accumulatorInputs note).signatureR8x = (signature.R8x : F)
      ∧ (accumulatorInputs note).signatureR8y = (signature.R8y : F)
      ∧ (accumulatorInputs note).signatureS = (signature.S : F) := by
  simp [accumulatorInputs, h]

theorem commitment_signal (tools : Tools) (note : NoteFile)
    : tools.poseidon.sig1 (note.secretKey : F) = (commitmentOf tools note : F) := by
  rw [commitmentOf, Poseidon.sig1_cast]

theorem commitment_val (tools : Tools) (note : NoteFile)
    : (commitmentOf tools note : F).val = commitmentOf tools note :=
  F.val_cast_of_lt (tools.poseidon.hash1_lt _)

theorem onCurve_dummy : Edwards.OnCurve babyJubjub ((0 : F), (1 : F)) :=
  (0 : Jubjub).property

/-- The dummy signature of genesis passes a verifier that is switched off. -/
theorem verifies_dummy {key : F × F} (hkey : Edwards.OnCurve babyJubjub key)
    (hgenesis : (accumulatorInputs note).isGenesis = 1) (M : F)
    : (accumulatorInputs note).verifies tools.circomlib 0 key M := by
  cases hsignature : note.signature with
  | none =>
    obtain ⟨-, hx, hy, hS⟩ := accumulatorInputs_genesis hsignature
    unfold Circuit.AccumulatorSignals.verifies
    rw [hx, hy, hS]
    refine tools.circomlib.verifier_disabled _ _ _ _ hkey onCurve_dummy ?_
    rw [ZMod.val_zero]
    decide
  | some signature =>
    rw [(accumulatorInputs_signed hsignature).1] at hgenesis
    exact absurd hgenesis zero_ne_one

section Request

variable {d : Deployment} {s : Credits.State} {path : List (Nat × Nat)} {key : EdDSAPublicKey}

structure Provable (tools : Tools) (note : NoteFile) (key : EdDSAPublicKey) : Prop where
  refunds_lt : (accumulatorInputs note).refunds.val < 2 ^ 128
  index_lt : (accumulatorInputs note).index.val < 2 ^ 32
  opened : (accumulatorInputs note).Opened tools.poseidon tools.circomlib (commitmentOf tools note : F)
    (keySignals key)

theorem requestInputs_eq {reads : RequestReads} (rerandomizer signalX : Nat)
    (hlength : reads.path.length = TREE_DEPTH)
    : requestInputs note reads rerandomizer signalX = some {
        secretKey := (note.secretKey : F)
        deposit := (reads.note.amount : F)
        merklePath := pathSignals reads.path
        accumulator := accumulatorInputs note
        rerandomizer := (rerandomizer : F)
        merkleRoot := (reads.root : F)
        maxCost := (reads.cMax : F)
        signalX := (signalX : F)
        serverPublicKey := keySignals reads.key
        length_merklePath := by
          unfold pathSignals
          rw [List.length_map]
          exact hlength
      } := by
  unfold requestInputs
  rw [dif_pos hlength]
  rfl

/-- In a state of the contract in which the note is active and the owner's opening covers one more
request, what `proveRequest` builds satisfies the request circuit. -/
theorem request_satisfied (hposeidon : tools.poseidon = d.poseidon) (hleaves : Leaves d s) (htree : Tree d s)
    (hdeposited : Deposited d s)
    (hactive : (s.notes (commitmentOf tools note)).status = .active)
    (hpath : getMerkleProof s (s.notes (commitmentOf tools note)).leafIndex = .ok path)
    (hkey : Edwards.OnCurve babyJubjub (keySignals key)) (hprovable : Provable tools note key)
    (hsolvent : ((accumulatorInputs note).index.val + 1) * d.cMax
      ≤ (s.notes (commitmentOf tools note)).amount + (accumulatorInputs note).refunds.val)
    (rerandomizer signalX : Nat)
    : ∃ inputs, requestInputs note
          ⟨s.notes (commitmentOf tools note), path, s.merkleRoot, d.cMax, key⟩ rerandomizer signalX = some inputs
        ∧ Circuit.Request tools.poseidon tools.circomlib inputs (inputs.outputs tools.poseidon)
        ∧ inputs.secretKey = (note.secretKey : F) ∧ inputs.accumulator = accumulatorInputs note
        ∧ inputs.rerandomizer = (rerandomizer : F) ∧ inputs.signalX = (signalX : F) := by
  have hexists : (s.notes (commitmentOf tools note)).status ≠ .none := by simp [hactive]
  obtain ⟨-, hmin, hmax⟩ := hdeposited _ hexists
  have hindex := hleaves.index_lt _ hexists
  obtain ⟨path', hpath', hlength, hbits, hclimb⟩ := Circuit.climb_getMerkleProof hleaves htree hindex
  obtain rfl : path = path' := by
    rw [hpath] at hpath'
    exact Except.ok.inj hpath'
  have hamount : ((s.notes (commitmentOf tools note)).amount : F).val
      = (s.notes (commitmentOf tools note)).amount :=
    F.val_cast_of_lt (Nat.lt_of_lt_of_le hmax (two_pow_le (by decide)))
  have hcMax : (d.cMax : F).val = d.cMax :=
    F.val_cast_of_lt (Nat.lt_of_le_of_lt hmin (Nat.lt_of_lt_of_le hmax (two_pow_le (by decide))))
  refine ⟨_, requestInputs_eq rerandomizer signalX hlength, ?_, rfl, rfl, rfl, rfl⟩
  apply Circuit.request_of_facts
  -- the signature of a genesis accumulator is a dummy
  . exact fun hgenesis M => verifies_dummy hkey hgenesis M
  . refine ⟨hprovable.index_lt, hprovable.refunds_lt, ?_, ?_, ?_, hbits, ?_, ?_⟩
    . rw [hamount]
      exact hmax
    . rw [hcMax]
      exact Nat.lt_of_le_of_lt hmin hmax
    . rw [hamount, hcMax]
      exact hsolvent
    . have hleaf : tools.poseidon.sig2 (tools.poseidon.sig1 (note.secretKey : F))
          ((s.notes (commitmentOf tools note)).amount : F)
          = Circuit.leafSignal s (s.notes (commitmentOf tools note)).leafIndex := by
        rw [commitment_signal, Circuit.leafSignal, hleaves.active _ hactive, Circuit.cast_hash2, hposeidon]
      rw [hleaf, hposeidon]
      exact hclimb
    . rw [commitment_signal]
      exact hprovable.opened

theorem proveFresh_satisfied (hposeidon : tools.poseidon = d.poseidon) (hleaves : Leaves d s)
    (htree : Tree d s) (hdeposited : Deposited d s)
    (hactive : (s.notes (commitmentOf tools note)).status = .active)
    (hpath : getMerkleProof s (s.notes (commitmentOf tools note)).leafIndex = .ok path)
    (hkey : Edwards.OnCurve babyJubjub (keySignals key)) (hprovable : Provable tools note key)
    (hsolvent : ((accumulatorInputs note).index.val + 1) * d.cMax
      ≤ (s.notes (commitmentOf tools note)).amount + (accumulatorInputs note).refunds.val)
    (payload : String) (model : Option String) (nonce rerandomizer : Nat)
    : ∃ inputs proof body,
        requestInputs note ⟨s.notes (commitmentOf tools note), path, s.merkleRoot, d.cMax, key⟩ rerandomizer
            (payloadSignalX tools payload nonce) = some inputs
          ∧ Circuit.Request tools.poseidon tools.circomlib inputs (inputs.outputs tools.poseidon)
          ∧ body = requestBody payload model nonce (payloadSignalX tools payload nonce) s.merkleRoot proof
              (inputs.outputs tools.poseidon)
          ∧ proveFresh tools note payload model
              ⟨s.notes (commitmentOf tools note), path, s.merkleRoot, d.cMax, key⟩ nonce rerandomizer
            = some (body, { note with pending := some ⟨rerandomizer, body⟩ }) := by
  obtain ⟨inputs, hinputs, hrequest, -⟩ := request_satisfied hposeidon hleaves htree hdeposited hactive hpath
    hkey hprovable hsolvent rerandomizer (payloadSignalX tools payload nonce)
  obtain ⟨proof, hproof⟩ := tools.request_complete hrequest
  exact ⟨inputs, proof, _, hinputs, hrequest, rfl,
    proveFresh_eq_some.mpr ⟨hactive, inputs, proof, _, hinputs, hproof, rfl, rfl⟩⟩

end Request

section Settlement

variable {reads : ExitReads} {recipient amount : Nat} {n : Int}

/-- Where the deposit and the refunds cover the claimed indices, what `proveWithdrawal` builds satisfies
the settlement circuit, and the payout is what is left. -/
theorem settlement_satisfied (hkey : Edwards.OnCurve babyJubjub (keySignals (exitKey note reads)))
    (hprovable : Provable tools note (exitKey note reads)) (hamount : amount < 2 ^ 128)
    (hcMax : reads.cMax < 2 ^ 128) (hcovers : (accumulatorInputs note).index.val ≤ (n : F).val)
    (hn : (n : F).val < 2 ^ 32)
    (hsolvent : (n : F).val * reads.cMax ≤ amount + (accumulatorInputs note).refunds.val)
    : Circuit.Settlement tools.poseidon tools.circomlib (settlementInputs tools note recipient n amount reads)
        ((settlementInputs tools note recipient n amount reads).outputs tools.poseidon)
      ∧ ((settlementInputs tools note recipient n amount reads).outputs tools.poseidon).payout.val
          + (n : F).val * reads.cMax = amount + (accumulatorInputs note).refunds.val := by
  have hamountVal : (amount : F).val = amount :=
    F.val_cast_of_lt (Nat.lt_of_lt_of_le hamount (two_pow_le (by decide)))
  have hcMaxVal : (reads.cMax : F).val = reads.cMax :=
    F.val_cast_of_lt (Nat.lt_of_lt_of_le hcMax (two_pow_le (by decide)))
  have hrefunds := hprovable.refunds_lt
  -- the payout over the naturals, which the field element stands for
  obtain ⟨payout, hpayout⟩ := Nat.exists_eq_add_of_le' hsolvent
  have hpayout_lt : payout < 2 ^ 129 := by omega
  have hpayoutVal : (payout : F).val = payout :=
    F.val_cast_of_lt (Nat.lt_of_lt_of_le hpayout_lt (two_pow_le (by decide)))
  have hsum : (payout : F).val + (n : F).val * (reads.cMax : F).val
      = (amount : F).val + (accumulatorInputs note).refunds.val := by
    rw [hpayoutVal, hcMaxVal, hamountVal]
    exact hpayout.symm
  have hout : (payout : F) = (amount : F) + (accumulatorInputs note).refunds - (n : F) * (reads.cMax : F) :=
    (Circuit.payout_eq_iff (by rw [hpayoutVal]; exact hpayout_lt) hn (by rw [hcMaxVal]; exact hcMax)
      (by rw [hamountVal]; exact hamount) hrefunds).mpr hsum
  constructor
  . apply Circuit.settlement_of_facts
    . exact fun hgenesis M => verifies_dummy hkey hgenesis M
    . refine ⟨commitment_signal tools note, hcovers, hn, hrefunds, ?_, ?_, ?_, ?_, ?_, rfl, rfl⟩
      . show (amount : F).val < 2 ^ 128
        rw [hamountVal]
        exact hamount
      . show (reads.cMax : F).val < 2 ^ 128
        rw [hcMaxVal]
        exact hcMax
      . show ((amount : F) + (accumulatorInputs note).refunds - (n : F) * (reads.cMax : F)).val
          + (n : F).val * (reads.cMax : F).val = _
        rw [← hout]
        exact hsum
      . show ((amount : F) + (accumulatorInputs note).refunds - (n : F) * (reads.cMax : F)).val < 2 ^ 129
        rw [← hout, hpayoutVal]
        exact hpayout_lt
      . exact hprovable.opened
  . show ((amount : F) + (accumulatorInputs note).refunds - (n : F) * (reads.cMax : F)).val
      + (n : F).val * reads.cMax = _
    rw [← hout, hpayoutVal]
    exact hpayout.symm

end Settlement

section Example

/-- `Poseidon` for a first deposit of 1 ETH with the commitment `Poseidon(2)`, and for the first request
over it with the payload "hi" and the nonce 7. -/
def noteTable : List ((Nat × Nat) × Nat) :=
  [
    ((8645981980787649023086883978738420856660271013038108762834452721572614684349,
      1000000000000000000),
      1718170426189756660835366346414323744461028737730238208155081904252758427053),
    ((1718170426189756660835366346414323744461028737730238208155081904252758427053,
      0),
      13984416489322692235407858737993339307520287528946726780064677692786670939230),
    ((13984416489322692235407858737993339307520287528946726780064677692786670939230,
      14744269619966411208579211824598458697587494354926760081771325075741142829156),
      16450459485402501163143188868940199164466088926790117314377108125369218215940),
    ((16450459485402501163143188868940199164466088926790117314377108125369218215940,
      7423237065226347324353380772367382631490014989348495481811164164159255474657),
      11588420651538180227668579479383554170758151478131636767034114575548079517115),
    ((11588420651538180227668579479383554170758151478131636767034114575548079517115,
      11286972368698509976183087595462810875513684078608517520839298933882497716792),
      9184404805179578619193998452278377056046456585888571346036790687597293193493),
    ((9184404805179578619193998452278377056046456585888571346036790687597293193493,
      3607627140608796879659380071776844901612302623152076817094415224584923813162),
      10058451440012545035837160159619553673567964435360570128048329132432144503484),
    ((10058451440012545035837160159619553673567964435360570128048329132432144503484,
      19712377064642672829441595136074946683621277828620209496774504837737984048981),
      2584455695223229576189805674666080520276586625569598804402732570668389882743),
    ((2584455695223229576189805674666080520276586625569598804402732570668389882743,
      20775607673010627194014556968476266066927294572720319469184847051418138353016),
      9218432029252914432123349487706753330091680145872223314331645566745495375691),
    ((9218432029252914432123349487706753330091680145872223314331645566745495375691,
      3396914609616007258851405644437304192397291162432396347162513310381425243293),
      21833729209445943095985839645467410323255753465390444022884221839746955798533),
    ((21833729209445943095985839645467410323255753465390444022884221839746955798533,
      21551820661461729022865262380882070649935529853313286572328683688269863701601),
      16283080716122711833083735018956433277863219083133995403937598711690489889372),
    ((16283080716122711833083735018956433277863219083133995403937598711690489889372,
      6573136701248752079028194407151022595060682063033565181951145966236778420039),
      4809336123665324058777962767414540623402598664807400605259963964715881262974),
    ((4809336123665324058777962767414540623402598664807400605259963964715881262974,
      12413880268183407374852357075976609371175688755676981206018884971008854919922),
      6759026130476588251466426860789529797167917680463167100969390225618920569312),
    ((6759026130476588251466426860789529797167917680463167100969390225618920569312,
      14271763308400718165336499097156975241954733520325982997864342600795471836726),
      9134126694153132772684106766492899013282246543000661145927178084152333024357),
    ((9134126694153132772684106766492899013282246543000661145927178084152333024357,
      20066985985293572387227381049700832219069292839614107140851619262827735677018),
      9302040211989927776022935760123586248779013958971316170704918942060308613739),
    ((9302040211989927776022935760123586248779013958971316170704918942060308613739,
      9394776414966240069580838672673694685292165040808226440647796406499139370960),
      6197598948588362885652134164133301885353562801407384405259596364239003286733),
    ((6197598948588362885652134164133301885353562801407384405259596364239003286733,
      11331146992410411304059858900317123658895005918277453009197229807340014528524),
      18119475092495683785503742728305002028152925328919485163543099149676912800620),
    ((18119475092495683785503742728305002028152925328919485163543099149676912800620,
      15819538789928229930262697811477882737253464456578333862691129291651619515538),
      12656136574966438214961561216101815802275943369756478622699011435383592083058),
    ((12656136574966438214961561216101815802275943369756478622699011435383592083058,
      19217088683336594659449020493828377907203207941212636669271704950158751593251),
      12161596594593118770750259360328980606055184849497471095586825070399910132760),
    ((12161596594593118770750259360328980606055184849497471095586825070399910132760,
      21035245323335827719745544373081896983162834604456827698288649288827293579666),
      7902394318205130870948598263290062584965755186607345814048272823321800910262),
    ((7902394318205130870948598263290062584965755186607345814048272823321800910262,
      6939770416153240137322503476966641397417391950902474480970945462551409848591),
      6840287089594748389043851009692371585431293837663884463381012158813947688055),
    ((6840287089594748389043851009692371585431293837663884463381012158813947688055,
      10941962436777715901943463195175331263348098796018438960955633645115732864202),
      600310189060069398739489932102648013758936089174071259244201112921973562296),
    ((21023094671860425355490264926124925764559694019428733141923896094461443340962, 7),
      15602345700497726571698798826640696582464793113381578888777701959776974339653),
    ((2, 0), 17525667638260400994329361135304146970274213890416440938331684485841550124768)
  ]

def notePoseidon : Poseidon :=
  .ofTable
    [(2, 8645981980787649023086883978738420856660271013038108762834452721572614684349),
      (17525667638260400994329361135304146970274213890416440938331684485841550124768,
        10074324051855002609523505489937055907983030479915504202265069806858088209930)]
    (Credits.emptyTreeTable ++ noteTable)

def noteKey : EdDSAPublicKey := ⟨G.1.toNat, G.2.toNat⟩

def noteDeployment : Deployment :=
  { Credits.firstDeployment with poseidon := notePoseidon, serverPublicKey := noteKey }

def noteDeposit : Credits.Action :=
  .call ⟨2008, 1000000000000000000, fun _ _ _ => false⟩ (.deposit
    8645981980787649023086883978738420856660271013038108762834452721572614684349)

def noteRoot : Nat := 600310189060069398739489932102648013758936089174071259244201112921973562296

noncomputable def noteTools : Tools :=
  .reference notePoseidon (.reference fun _ _ _ _ => false)
    (fun _ => 21023094671860425355490264926124925764559694019428733141923896094461443340962) exampleProof []

theorem secretKey_two : (newNote 2).secretKey = 2 := F.val_cast_of_lt (show 2 < FIELD_MODULUS by decide)

theorem notePoseidon_ne_zero (a b : Nat) : notePoseidon.hash2 a b ≠ 0 :=
  Poseidon.ofTable_hash2_ne_zero (by decide +kernel) a b

/-- No pair of the table has a 1, so the nodes above a leaf that is not in the table are 1. -/
theorem notePoseidon_one (a : Nat) : notePoseidon.hash2 1 a = 1 ∧ notePoseidon.hash2 a 1 = 1 := by
  have htable : ∀ entry ∈ Credits.emptyTreeTable ++ noteTable, entry.1.1 ≠ 1 ∧ entry.1.2 ≠ 1 := by
    decide +kernel
  have hone : 1 % FIELD_MODULUS = 1 := Nat.mod_eq_of_lt FIELD_MODULUS.one_lt
  constructor
  . apply Poseidon.ofTable_hash2_eq_one
    intro entry hentry heq
    exact (htable entry hentry).1 (by rw [heq, hone])
  . apply Poseidon.ofTable_hash2_eq_one
    intro entry hentry heq
    exact (htable entry hentry).2 (by rw [heq, hone])

theorem onCurve_noteKey : Edwards.OnCurve babyJubjub (keySignals noteKey) := by
  have hx : ((G.1.toNat : Nat) : F) = (G.1 : F) := by
    rw [← Int.cast_natCast, Int.toNat_of_nonneg (by decide)]
  have hy : ((G.2.toNat : Nat) : F) = (G.2 : F) := by
    rw [← Int.cast_natCast, Int.toNat_of_nonneg (by decide)]
  unfold keySignals noteKey
  rw [hx, hy]
  exact pointG.property

theorem noteDeposit_facts
    : (Credits.run noteDeployment [noteDeposit]).stack.length = 0
      ∧ (Credits.run noteDeployment [noteDeposit]).state.entered = false
      ∧ (Credits.run noteDeployment [noteDeposit]).state.paused = false
      ∧ (Credits.run noteDeployment [noteDeposit]).state.leaves.length = 1
      ∧ (Credits.run noteDeployment [noteDeposit]).state.notes
          8645981980787649023086883978738420856660271013038108762834452721572614684349
        = ⟨1000000000000000000, 1700000000, 0, .active⟩
      ∧ (Credits.run noteDeployment [noteDeposit]).state.merkleRoot = noteRoot
      ∧ (Credits.pushedRoots (Credits.run noteDeployment [noteDeposit]).state.logs).length = 2 := by
  decide +kernel

end Example

end Client
end Longjing
