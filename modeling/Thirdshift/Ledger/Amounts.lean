import Thirdshift.Ledger.Balance

/-!
# Charges and confirmations in machine integers

Within the range of token counts and prices that the service uses, a charge is the exact quotient
rounded to the nearest microdollar. A confirmation compares sums modulo `2 ^ 64`, so it reconciles
exactly when no host's difference reaches `2 ^ 64`.
-/

namespace Thirdshift

open Foundation List Ledger Tx Deployment

/-! ### Charges -/

/-- `c` is the integer nearest to `num / den`, halves rounded up. -/
def IsNearest (num den c : Int) : Prop := 2 * den * c - den ≤ 2 * num ∧ 2 * num < 2 * den * c + den

def isTokenCount (n : Int) : Prop := 0 ≤ n ∧ n ≤ 2147483647
def isPrice (n : Int) : Prop := 0 ≤ n ∧ n ≤ 2147483648

variable {price tokens : Int}

theorem product_bounds (ht : isTokenCount tokens) (hp : isPrice price) :
    0 ≤ tokens * price ∧ tokens * price ≤ 2147483647 * 2147483648 := by
  constructor
  · exact Int.mul_nonneg ht.1 hp.1
  · exact Int.mul_le_mul ht.2 hp.2 hp.1 (by decide)

theorem charge_exact (ht : isTokenCount tokens) (hp : isPrice price) :
    wrap64 (tokens * price) = tokens * price ∧
    wrap64 (tokens * price + 500000) = tokens * price + 500000 ∧
    IsNearest (tokens * price) 1000000 (chargeForTokens tokens price) := by
  obtain ⟨low, high⟩ := product_bounds ht hp
  have first : wrap64 (tokens * price) = tokens * price := wrap64_eq (by omega) (by omega)
  have second : wrap64 (tokens * price + 500000) = tokens * price + 500000 :=
    wrap64_eq (by omega) (by omega)
  refine ⟨first, second, ?_⟩
  unfold chargeForTokens IsNearest
  split
  next none =>
    -- One factor is zero, and so is the product.
    have zero : tokens * price = 0 := by
      rcases none with t | p
      · rw [Int.le_antisymm t ht.1, Int.zero_mul]
      · rw [Int.le_antisymm p hp.1, Int.mul_zero]
    omega
  · rw [first, second, Int.tdiv_eq_ediv_of_nonneg (by omega)]
    omega

theorem charge_mono {tokens' price' : Int} (ht : isTokenCount tokens) (ht' : isTokenCount tokens')
    (hp : isPrice price) (hp' : isPrice price') (more : tokens ≤ tokens') (dearer : price ≤ price') :
    chargeForTokens tokens price ≤ chargeForTokens tokens' price' := by
  have product : tokens * price ≤ tokens' * price' := Int.mul_le_mul more dearer hp.1 ht'.1
  obtain ⟨low, high⟩ := (charge_exact ht hp).2.2
  obtain ⟨low', high'⟩ := (charge_exact ht' hp').2.2
  omega

theorem charge_split {a b : Int} (ha : isTokenCount a) (hb : isTokenCount b)
    (hab : isTokenCount (a + b)) (hp : isPrice price) :
    (chargeForTokens (a + b) price - (chargeForTokens a price + chargeForTokens b price)).natAbs ≤
      1 := by
  have product : (a + b) * price = a * price + b * price := Int.add_mul a b price
  obtain ⟨low, high⟩ := (charge_exact hab hp).2.2
  obtain ⟨lowA, highA⟩ := (charge_exact ha hp).2.2
  obtain ⟨lowB, highB⟩ := (charge_exact hb hp).2.2
  omega

/-- Prices in range, and a host price that is not above the customer's output price. -/
structure ModelPrice.Covers (price : ModelPrice) : Prop where
  input : isPrice price.customerInputPerMillion
  output : isPrice price.customerOutputPerMillion
  host : isPrice price.hostCreditPerMillionOutput
  below : price.hostCreditPerMillionOutput ≤ price.customerOutputPerMillion

theorem margin_nonneg {posting : AcceptedJobPosting} {price : ModelPrice} (covers : price.Covers)
    (prompt : isTokenCount posting.promptTokens)
    (completion : isTokenCount posting.completionTokens)
    (plain : posting.verificationOverheadMicrodollars = 0) :
    0 ≤ Ledger.platformMargin posting price ∧
      Ledger.platformMargin posting price < 20000000000000 := by
  have earned := charge_mono completion completion covers.host covers.output (Int.le_refl _)
    covers.below
  have paid : 0 ≤ chargeForTokens posting.promptTokens price.customerInputPerMillion := by
    obtain ⟨low, high⟩ := (charge_exact prompt covers.input).2.2
    have product := (product_bounds prompt covers.input).1
    omega
  have credit : 0 ≤ chargeForTokens posting.completionTokens price.hostCreditPerMillionOutput := by
    obtain ⟨low, high⟩ := (charge_exact completion covers.host).2.2
    have product := (product_bounds completion covers.host).1
    omega
  have input := (charge_bound posting.promptTokens price.customerInputPerMillion).2
  have output := (charge_bound posting.completionTokens price.customerOutputPerMillion).2
  have charge : wrap64 (chargeForTokens posting.promptTokens price.customerInputPerMillion +
      chargeForTokens posting.completionTokens price.customerOutputPerMillion) =
      chargeForTokens posting.promptTokens price.customerInputPerMillion +
      chargeForTokens posting.completionTokens price.customerOutputPerMillion :=
    wrap64_eq (by omega) (by omega)
  rw [Ledger.platformMargin, charge, plain, Int.max_self, Int.sub_zero,
    wrap64_eq (by omega) (by omega)]
  omega

/-- Charges round to the nearest microdollar without overflow, grow with both arguments and add up
to within one; an acceptance without overhead records a margin that is not negative. -/
theorem charges_exact :
    (∀ tokens price, isTokenCount tokens → isPrice price →
      wrap64 (tokens * price) = tokens * price ∧
      wrap64 (tokens * price + 500000) = tokens * price + 500000 ∧
      IsNearest (tokens * price) 1000000 (chargeForTokens tokens price)) ∧
    (∀ tokens tokens' price price', isTokenCount tokens → isTokenCount tokens' → isPrice price →
      isPrice price' → tokens ≤ tokens' → price ≤ price' →
      chargeForTokens tokens price ≤ chargeForTokens tokens' price') ∧
    (∀ a b price, isTokenCount a → isTokenCount b → isTokenCount (a + b) → isPrice price →
      (chargeForTokens (a + b) price -
        (chargeForTokens a price + chargeForTokens b price)).natAbs ≤ 1) ∧
    ∀ (ids : Nat → String) (posting : AcceptedJobPosting) (db db' : Db) (version : String)
      (pricing : Pricing),
      db.pricing posting.jobID posting.attemptID posting.receivedAt = some pricing →
      pricing.price.Covers → isTokenCount posting.promptTokens →
      isTokenCount posting.completionTokens → posting.verificationOverheadMicrodollars = 0 →
      Tx.exec schema (Ledger.postAcceptedJob ids posting) db = .ok (version, db') →
      ∃ e ∈ Ledger.entriesOf db' (ids 0), e.memo = "platform margin" ∧
        e.amountMicrodollars = -Ledger.platformMargin posting pricing.price ∧
        0 ≤ Ledger.platformMargin posting pricing.price := by
  refine ⟨fun _ _ => charge_exact, fun _ _ _ _ => charge_mono, fun _ _ _ => charge_split, ?_⟩
  intro ids posting db db' version pricing priced covers prompt completion plain posted
  obtain ⟨low, high⟩ := margin_nonneg covers prompt completion plain
  obtain ⟨found, es, same, recorded, ⟨account, inside⟩, -⟩ := recorded_postAcceptedJob posted
  rw [priced] at same
  cases same
  refine ⟨_, mem_filter.mpr ⟨recorded.entries ▸ mem_append_right _ inside, by simp⟩, rfl,
    ?_, low⟩
  exact wrap64_eq (by omega) (by omega)

/-- The job of the deployment, whose price covers the host's credit. -/
theorem charges_exact_posted : ∃ db db' : Db,
    Tx.exec schema (Ledger.postAcceptedJob idle.ids ⟨"j", "a", 10, 0, 3, 2, 0⟩) db =
      .ok ("alpha", db') ∧
    ∃ e ∈ Ledger.entriesOf db' "x0", e.memo = "platform margin" ∧ e.amountMicrodollars = -6 := by
  have runs : ((Tx.exec schema underway start.db).toOption.any fun last =>
      (last.2.pricing "j" "a" 10).any (fun p => p.price.customerInputPerMillion = 1000000 &&
        p.price.customerOutputPerMillion = 2000000 &&
        p.price.hostCreditPerMillionOutput = 500000) &&
      (Tx.exec schema (Ledger.postAcceptedJob idle.ids ⟨"j", "a", 10, 0, 3, 2, 0⟩)
        last.2).toOption.any fun r => r.1 = "alpha") = true := by decide +kernel
  obtain ⟨⟨_, db⟩, -, checks⟩ := Deployment.ok_of_check runs
  obtain ⟨priced, posts⟩ := Bool.and_eq_true_iff.mp checks
  obtain ⟨pricing, found, prices⟩ := (Option.any_eq_true _ _).mp priced
  simp only [Bool.and_eq_true, decide_eq_true_eq] at prices
  obtain ⟨⟨input, output⟩, host⟩ := prices
  obtain ⟨⟨version, db'⟩, posted, named⟩ := Deployment.ok_of_check posts
  have named : version = "alpha" := of_decide_eq_true named
  subst named
  have covers : pricing.price.Covers := by
    constructor <;> simp only [input, output, host, isPrice] <;> decide
  obtain ⟨e, inside, memo, amount, -⟩ := charges_exact.2.2.2 _ _ db db' _ pricing found covers
    (by unfold isTokenCount; decide) (by unfold isTokenCount; decide) rfl posted
  refine ⟨db, db', posted, e, inside, memo, amount.trans ?_⟩
  simp only [Ledger.platformMargin, input, output, host]
  decide

/-! ### Confirmations -/

section

variable {ids : Nat → String} {batchID : String} {rows : List ConfirmationRow} {now : Time}
  {db db' : Db} {u : Unit}

theorem Ledger.confirms_of_confirmed
    (ok : Tx.exec schema (Ledger.confirmPayoutBatch ids batchID rows now) db = .ok (u, db')) :
    Ledger.confirms (Ledger.exportedItems batchID db) rows = true := by
  obtain ⟨_, _, required, rest₀⟩ := exec_bind_ok ok
  rw [(require_ok required).2] at rest₀
  obtain ⟨found, mid, locked, rest₁⟩ := exec_bind_ok rest₀
  have kept : mid.items = db.items := by rw [(lockBatch_ok locked).2]
  cases found with
  | none => cases rest₁
  | some batch =>
    obtain ⟨_, _, status, rest₂⟩ := exec_bind_ok rest₁
    obtain ⟨-, rfl⟩ := require_ok status
    obtain ⟨expected, _, read, rest₃⟩ := exec_bind_ok rest₂
    obtain ⟨which, rfl⟩ := exec_select_ok read
    obtain ⟨_, _, confirmed, -⟩ := exec_bind_ok rest₃
    have passed := (require_ok confirmed).1
    rwa [which, Ledger.exportedItems, kept] at passed

variable {items : List PayoutItem}

theorem Ledger.expectedFor_absent {host : NodeID} (absent : ∀ i ∈ items, i.hostNodeID ≠ host) :
    Ledger.expectedFor host items = 0 := by
  have empty : items.filter (fun i => i.hostNodeID = host) = [] :=
    filter_eq_nil_iff.mpr fun i member same => absent i member (of_decide_eq_true same)
  rw [Ledger.expectedFor, empty]
  rfl

theorem Ledger.confirmedFor_absent {host : NodeID}
    (absent : ∀ amount, ConfirmationRow.paid host amount ∉ rows) :
    Ledger.confirmedFor host rows = 0 := by
  induction rows with
  | nil => rfl
  | cons row rows ih =>
    have later := ih fun amount inside => absent amount (mem_cons_of_mem _ inside)
    rw [Ledger.confirmedFor] at later ⊢
    rw [map_cons, sum_cons, later, Int.add_zero]
    cases row with
    | short => rfl
    | unreadable => rfl
    | paid other amount =>
      have apart : other ≠ host := by
        rintro rfl
        exact absent amount mem_cons_self
      exact if_neg apart

theorem Ledger.difference_wraps (confirmed : Ledger.confirms items rows = true) (host : NodeID) :
    wrap64 (Ledger.expectedFor host items - Ledger.confirmedFor host rows) = 0 := by
  obtain ⟨read, paid⟩ := Bool.and_eq_true_iff.mp confirmed
  rw [all_eq_true] at read paid
  by_cases exported : ∃ i ∈ items, i.hostNodeID = host
  · obtain ⟨i, member, rfl⟩ := exported
    exact of_decide_eq_true (paid i member)
  by_cases named : ∃ amount, ConfirmationRow.paid host amount ∈ rows
  · obtain ⟨amount, member⟩ := named
    exact of_decide_eq_true (read _ member)
  -- A host that is in neither has both sums zero.
  have noItems := expectedFor_absent fun i member same => exported ⟨i, member, same⟩
  have noRows := confirmedFor_absent fun amount inside => named ⟨amount, inside⟩
  rw [noItems, noRows]
  rfl

/-- What each host was paid according to the confirmation is what its exported items say. -/
def Ledger.Reconciles (items : List PayoutItem) (rows : List ConfirmationRow) : Prop :=
  ∀ host, Ledger.confirmedFor host rows = Ledger.expectedFor host items ∧
    ((∀ i ∈ items, i.hostNodeID ≠ host) → Ledger.confirmedFor host rows = 0)

/-- A batch is confirmed against a file that reconciles, exactly when no host's sums are a multiple
of `2 ^ 64` apart without being equal. -/
theorem confirmation_reconciles_iff
    (ok : Tx.run schema (Ledger.confirmPayoutBatch ids batchID rows now) db = .ok (u, db')) :
    Ledger.Reconciles (Ledger.exportedItems batchID db) rows ↔
      ∀ host, (Ledger.expectedFor host (Ledger.exportedItems batchID db) -
        Ledger.confirmedFor host rows).natAbs < 18446744073709551616 := by
  have wraps := difference_wraps (confirms_of_confirmed (run_ok ok).1)
  constructor
  · intro reconciles host
    rw [(reconciles host).1, Int.sub_self]
    decide
  · intro within host
    have same : Ledger.confirmedFor host rows =
        Ledger.expectedFor host (Ledger.exportedItems batchID db) := by
      have near := within host
      have wrapped := wraps host
      unfold wrap64 at wrapped
      omega
    exact ⟨same, fun none => same.trans (expectedFor_absent none)⟩

end

namespace Deployment

/-- One credit of one microdollar for `n1` is released and exported in the batch `b0`. -/
def exported : SqlTx Unit := do
  underway
  let _ ← Ledger.postAcceptedJob idle.ids ⟨"j", "a", 10, 0, 3, 2, 0⟩
  let _ ← Ledger.promoteAvailableCredits (drawing "p").ids (seconds 86401)
  let _ ← Ledger.createPayoutBatch (drawing "b").ids ""
  let _ ← Ledger.exportPayoutBatch "b0" (seconds 86402)
  pure ()

/-- What is confirmed once the batch is exported, with what was confirmed for `n1`. -/
def confirmed (rows : List ConfirmationRow) : Option (Int × Int × Option BatchStatus) :=
  match Tx.exec schema exported start.db with
  | .ok (_, db) =>
    match Tx.run schema (Ledger.confirmPayoutBatch (drawing "c").ids "b0" rows (seconds 86403)) db with
    | .ok (_, db') => some (Ledger.confirmedFor "n1" rows,
        Ledger.expectedFor "n1" (Ledger.exportedItems "b0" db),
        (db'.batches.find? "b0").map PayoutBatch.status)
    | .error _ => none
  | .error _ => none

/-- Three rows for `n1` that add up to its credit and `2 ^ 64`. -/
def overflowing : List ConfirmationRow :=
  [.paid "n1" 9223372036854775807, .paid "n1" 9223372036854775807, .paid "n1" 3]

/-- What was paid to `n1` and to a host without items, each with a correction. -/
def inParts : List ConfirmationRow := [.paid "n1" 3, .paid "n2" 5, .paid "n1" (-2), .paid "n2" (-5)]

end Deployment

/-- The batch is paid although the confirmed sum is far from the exported one. -/
theorem confirmation_overflows :
    confirmed overflowing = some (18446744073709551617, 1, some .paid) := by
  decide +kernel

open Deployment in
theorem confirmation_reconciles_iff_parts : ∃ db db' : Db,
    Tx.run schema (Ledger.confirmPayoutBatch (drawing "c").ids "b0" inParts (seconds 86403)) db =
      .ok ((), db') ∧
    Ledger.expectedFor "n1" (Ledger.exportedItems "b0" db) = 1 ∧
    Ledger.Reconciles (Ledger.exportedItems "b0" db) inParts := by
  have runs : ((Tx.exec schema exported start.db).toOption.any fun last =>
      (Ledger.exportedItems "b0" last.2).map (fun i => (i.hostNodeID, i.amountMicrodollars)) =
        [("n1", 1)] &&
      (Tx.run schema (Ledger.confirmPayoutBatch (drawing "c").ids "b0" inParts
        (seconds 86403)) last.2).toOption.any fun _ => true) = true := by decide +kernel
  obtain ⟨⟨_, db⟩, -, checks⟩ := Deployment.ok_of_check runs
  obtain ⟨exports, confirms⟩ := Bool.and_eq_true_iff.mp checks
  obtain ⟨⟨_, db'⟩, confirmed, -⟩ := Deployment.ok_of_check confirms
  -- The only item is the credit of `n1`.
  have expected : ∀ host, Ledger.expectedFor host (Ledger.exportedItems "b0" db) =
      if "n1" = host then 1 else 0 := by
    obtain ⟨i, single, item⟩ := map_eq_singleton_iff.mp (of_decide_eq_true exports)
    obtain ⟨named, amount⟩ := Prod.mk.inj item
    intro host
    dsimp only at single
    rw [Ledger.expectedFor, single]
    by_cases here : "n1" = host
    · simp [named, amount, here]
    · simp [named, here]
  refine ⟨db, db', confirmed, by rw [expected, if_pos rfl], ?_⟩
  refine (confirmation_reconciles_iff confirmed).mpr fun host => ?_
  rw [expected, Ledger.confirmedFor]
  by_cases here : "n1" = host <;> by_cases other : "n2" = host <;> simp [inParts, here, other]

end Thirdshift
