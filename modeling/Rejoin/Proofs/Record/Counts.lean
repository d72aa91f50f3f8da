import Mathlib.Data.List.DropRight
import Rejoin.Record.Metrics

/-! What the counters hold. They are words that start over when they are full. As long as there are fewer
records than a word can count, a counter of the ledger holds the number of records of its kind since the
last reset, and the exported one of its name the number of all of them. -/

namespace Rejoin

namespace Ledger

/-- What the word of a counter holds. -/
def word (ledger : Ledger) (tally : Tally) : UInt64 := UInt64.ofNat (ledger.get tally)

/-- The retries of both kinds as a word, the largest one if they are more. -/
def retriesWord (ledger : Ledger) : UInt64 :=
  UInt64.ofNat (min ((ledger.word .resume).toNat + (ledger.word .reconnect).toNat) (UInt64.size - 1))

theorem get_empty (tally : Tally) : empty.get tally = 0 := by
  cases tally <;> rfl

theorem get_count (ledger : Ledger) (tally other : Tally) :
    (ledger.count tally).get other = ledger.get other + if other = tally then 1 else 0 := by
  cases tally <;> cases other <;> rfl

theorem toNat_word {ledger : Ledger} {tally : Tally} (h : ledger.get tally < UInt64.size) :
    (ledger.word tally).toNat = ledger.get tally :=
  UInt64.toNat_ofNat_of_lt' h

/-- The sum of both kinds of retries is not cut off as long as a word can count them. -/
theorem toNat_retriesWord {ledger : Ledger} (h : ledger.totalRetries < UInt64.size) :
    ledger.retriesWord.toNat = ledger.totalRetries := by
  have hresumes : ledger.get .resume ≤ ledger.totalRetries := Nat.le_add_right _ _
  have hreconnects : ledger.get .reconnect ≤ ledger.totalRetries := Nat.le_add_left _ _
  rw [retriesWord, toNat_word (Nat.lt_of_le_of_lt hresumes h),
    toNat_word (Nat.lt_of_le_of_lt hreconnects h)]
  change (UInt64.ofNat (min ledger.totalRetries (UInt64.size - 1))).toNat = _
  rw [Nat.min_eq_left (Nat.le_sub_one_of_lt h), UInt64.toNat_ofNat_of_lt' h]

/-- A counter goes on by one even from a full word. -/
theorem word_count (ledger : Ledger) (tally other : Tally) :
    (ledger.count tally).word other = ledger.word other + if other = tally then 1 else 0 := by
  rw [word, get_count, UInt64.ofNat_add, word]
  split <;> rfl

end Ledger

namespace Metrics

/-- Whether a step records something. -/
def Step.isRecord : Step → Bool
  | .retry _ | .error _ => true
  | .reset => false

/-- Whether a step records a retry. -/
def Step.isRetry : Step → Bool
  | .retry _ => true
  | .error _ | .reset => false

/-- The steps after the last reset. -/
def sinceReset (steps : List Step) : List Step := steps.rtakeWhile Step.isRecord

end Metrics

/-- The records that a counter is there for. -/
def Tally.counts : Tally → Metrics.Step → Bool
  | .resume, .retry signal => signal.stage = .resuming
  | .reconnect, .retry signal => signal.stage ≠ .resuming
  | .exhausted, .error (.exhausted _ _ _) => true
  | .terminal, .error (.terminal _) => true
  | .terminal, .error .missingCause => true
  | .hookFailure, .error (.hook _) => true
  | .cancelled, .error .cancelled => true
  | _, _ => false

namespace Tally

theorem counts_retry_iff {tally : Tally} {signal : Signal} :
    tally.counts (.retry signal) ↔ tally = ofSignal signal := by
  unfold ofSignal
  by_cases hstage : signal.stage = .resuming <;> cases tally <;> simp [counts, hstage]

theorem counts_error_iff {tally : Tally} {error : RetryError} :
    tally.counts (.error error) ↔ tally = ofError error := by
  cases error <;> cases tally <;> simp [counts, ofError]

theorem exportName_injective {tally other : Tally} (h : tally.exportName = other.exportName) :
    tally = other := by
  cases tally <;> cases other <;> simp [exportName] at h ⊢

end Tally

namespace Metrics

variable {step : Step}

/-! ### One step -/

/-- A record has one counter, which goes on by one in the ledger and among the exported ones. -/
theorem exists_counter (hrecord : step.isRecord) :
    ∃ tally : Tally, (∀ other : Tally, other.counts step ↔ other = tally) ∧
      ∀ metrics : Metrics, metrics.step step = metrics.count tally := by
  cases step with
  | retry signal => exact ⟨.ofSignal signal, fun _ => Tally.counts_retry_iff, fun _ => rfl⟩
  | error error => exact ⟨.ofError error, fun _ => Tally.counts_error_iff, fun _ => rfl⟩
  | reset => cases hrecord

theorem get_ledger_step (hrecord : step.isRecord) (metrics : Metrics) (tally : Tally) :
    (metrics.step step).ledger.get tally =
      metrics.ledger.get tally + if tally.counts step then 1 else 0 := by
  obtain ⟨counter, hcounter, hstep⟩ := exists_counter hrecord
  simp only [hstep, hcounter]
  exact Ledger.get_count _ _ _

theorem get_exported_step (metrics : Metrics) (step : Step) (tally : Tally) :
    (metrics.step step).exported.get tally =
      metrics.exported.get tally + if tally.counts step then 1 else 0 := by
  by_cases hrecord : step.isRecord
  · obtain ⟨counter, hcounter, hstep⟩ := exists_counter hrecord
    simp only [hstep, hcounter]
    exact Ledger.get_count _ _ _
  · cases step with
    | retry | error => exact absurd rfl hrecord
    | reset => cases tally <;> rfl

/-! ### Any steps -/

theorem steps_concat (metrics : Metrics) (past : List Step) (last : Step) :
    metrics.steps (past ++ [last]) = (metrics.steps past).step last := by
  rw [steps, List.foldl_append]
  rfl

theorem get_ledger_steps (steps : List Step) (tally : Tally) :
    (Metrics.steps {} steps).ledger.get tally = (sinceReset steps).countP tally.counts := by
  induction steps using List.reverseRecOn with
  | nil => exact Ledger.get_empty tally
  | append_singleton past last ih =>
      rw [steps_concat, sinceReset, List.rtakeWhile_concat]
      split
      case isTrue hrecord =>
          rw [get_ledger_step hrecord, ih, List.countP_append, List.countP_singleton]
          rfl
      case isFalse hreset =>
          cases last with
          | retry | error => exact absurd rfl hreset
          | reset => exact Ledger.get_empty tally

theorem get_exported_steps (steps : List Step) (tally : Tally) :
    (Metrics.steps {} steps).exported.get tally = steps.countP tally.counts := by
  induction steps using List.reverseRecOn with
  | nil => exact Ledger.get_empty tally
  | append_singleton past last ih =>
      rw [steps_concat, get_exported_step, ih, List.countP_append, List.countP_singleton]

/-- A retry is a resume or a reconnect, and not both. -/
theorem countP_retries (steps : List Step) :
    steps.countP Tally.resume.counts + steps.countP Tally.reconnect.counts =
      steps.countP Step.isRetry := by
  induction steps with
  | nil => rfl
  | cons step steps ih =>
      have hone : (if Tally.resume.counts step then 1 else 0) +
          (if Tally.reconnect.counts step then 1 else 0) = if step.isRetry then 1 else 0 := by
        cases step with
        | retry signal =>
            by_cases hstage : signal.stage = .resuming <;> simp [Tally.counts, Step.isRetry, hstage]
        | error | reset => rfl
      simp only [List.countP_cons]
      omega

theorem totalRetries_steps (steps : List Step) :
    (Metrics.steps {} steps).ledger.totalRetries = (sinceReset steps).countP Step.isRetry := by
  have hresumes := get_ledger_steps steps .resume
  have hreconnects := get_ledger_steps steps .reconnect
  rw [← countP_retries, ← hresumes, ← hreconnects]
  rfl

/-! ### Words -/

theorem countP_counts_le (tally : Tally) (steps : List Step) :
    steps.countP tally.counts ≤ steps.countP Step.isRecord := by
  apply List.countP_mono_left
  intro step _ hcounts
  cases step with
  | retry | error => rfl
  | reset => cases tally <;> cases hcounts

theorem countP_sinceReset_le (counted : Step → Bool) (steps : List Step) :
    (sinceReset steps).countP counted ≤ steps.countP counted :=
  (List.rtakeWhile_suffix _ _).sublist.countP_le

section Few

variable {steps : List Step} (hfew : steps.countP Step.isRecord < UInt64.size)

include hfew

theorem toNat_word_ledger (tally : Tally) :
    ((Metrics.steps {} steps).ledger.word tally).toNat = (sinceReset steps).countP tally.counts := by
  have hle := Nat.le_trans (countP_sinceReset_le tally.counts steps) (countP_counts_le tally steps)
  rw [← get_ledger_steps] at hle ⊢
  exact Ledger.toNat_word (Nat.lt_of_le_of_lt hle hfew)

theorem toNat_word_exported (tally : Tally) :
    ((Metrics.steps {} steps).exported.word tally).toNat = steps.countP tally.counts := by
  have hle := countP_counts_le tally steps
  rw [← get_exported_steps] at hle ⊢
  exact Ledger.toNat_word (Nat.lt_of_le_of_lt hle hfew)

theorem totalRetries_lt : (Metrics.steps {} steps).ledger.totalRetries < UInt64.size := by
  rw [totalRetries_steps]
  calc (sinceReset steps).countP Step.isRetry
      ≤ steps.countP Step.isRetry := countP_sinceReset_le _ _
    _ ≤ steps.countP Step.isRecord := by
      apply List.countP_mono_left
      intro step _ hretry
      cases step with
      | retry => rfl
      | error | reset => cases hretry
    _ < UInt64.size := hfew

end Few

theorem mem_exportedTotals_iff {metrics : Metrics} {tally : Tally} {count : Nat} :
    (tally.exportName, count) ∈ metrics.exportedTotals ↔
      count ≠ 0 ∧ metrics.exported.get tally = count := by
  have hall : tally ∈ Tally.all := by cases tally <;> decide
  rw [exportedTotals, List.mem_filterMap]
  constructor
  · rintro ⟨other, -, hother⟩
    split at hother
    case isTrue => cases hother
    case isFalse hsome =>
        obtain ⟨hname, rfl⟩ := Prod.mk.inj (Option.some.inj hother)
        obtain rfl := Tally.exportName_injective hname
        exact ⟨hsome, rfl⟩
  · rintro ⟨hsome, rfl⟩
    exact ⟨tally, hall, if_neg hsome⟩

/-- **Counters in pairs.** With fewer records than a word can count, each counter of the ledger
holds the records of its kind since the last reset, each exported one all records of its kind, under
the name of that counter, and the retries are the records of retries since the last reset. The six
names are those below. A record raises one counter of the ledger by one, and the exported one of the
same name, and no other. A reset takes the ledger back to zero and leaves the exported counters
alone. -/
theorem steps_count_in_pairs {steps : List Step} (hfew : steps.countP Step.isRecord < UInt64.size) :
    let metrics := Metrics.steps {} steps
    (∀ tally : Tally,
      (metrics.ledger.word tally).toNat = (sinceReset steps).countP tally.counts ∧
      (metrics.exported.word tally).toNat = steps.countP tally.counts ∧
      ∀ count, (tally.exportName, count) ∈ metrics.exportedTotals ↔
        count ≠ 0 ∧ steps.countP tally.counts = count) ∧
    Tally.all.map (fun tally => (tally, tally.exportName)) =
      [(.resume, "gateway.retry.resumes"), (.reconnect, "gateway.retry.reconnects"),
        (.exhausted, "gateway.retry.exhausted"), (.terminal, "gateway.retry.terminal"),
        (.hookFailure, "gateway.retry.hook_failures"), (.cancelled, "gateway.retry.cancelled")] ∧
    (metrics.ledger.totalRetries = (sinceReset steps).countP Step.isRetry ∧
      metrics.ledger.retriesWord.toNat = metrics.ledger.totalRetries) ∧
    (∀ step : Step, step.isRecord → ∃ tally : Tally,
      (∀ other : Tally, other.counts step ↔ other = tally) ∧
      ∀ other, (metrics.step step).ledger.word other =
          metrics.ledger.word other + (if other = tally then 1 else 0) ∧
        (metrics.step step).exported.word other =
          metrics.exported.word other + if other = tally then 1 else 0) ∧
    (metrics.step .reset).exported = metrics.exported ∧
    ∀ tally, (metrics.step .reset).ledger.word tally = 0 := by
  intro metrics
  refine ⟨fun tally => ⟨toNat_word_ledger hfew tally, toNat_word_exported hfew tally, fun count => ?_⟩,
    rfl, ⟨totalRetries_steps steps, Ledger.toNat_retriesWord (totalRetries_lt hfew)⟩,
    fun step hrecord => ?_, rfl, fun tally => ?_⟩
  · rw [mem_exportedTotals_iff, get_exported_steps]
  · obtain ⟨tally, hcounts, hstep⟩ := exists_counter hrecord
    refine ⟨tally, hcounts, fun other => ?_⟩
    rw [hstep]
    exact ⟨Ledger.word_count _ _ _, Ledger.word_count _ _ _⟩
  · cases tally <;> rfl

/-- A retry of either kind and two errors that count as terminal, and a reset among them. -/
def mixed : List Step :=
  [.retry ⟨.invalidSession, 1, .zero, .reconnecting⟩, .error .missingCause, .reset,
    .retry ⟨.partialDisconnect, 1, .zero, .resuming⟩, .error (.terminal .invalidSession)]

/-- After a reset the ledger falls behind the exported counters. -/
theorem steps_count_in_pairs_when_mixed :
    mixed.countP Step.isRecord < UInt64.size ∧
      ((Metrics.steps {} mixed).ledger.word .terminal).toNat = 1 ∧
      ((Metrics.steps {} mixed).exported.word .terminal).toNat = 2 ∧
      ((Metrics.steps {} mixed).ledger.word .reconnect).toNat = 0 ∧
      ("gateway.retry.reconnects", 1) ∈ (Metrics.steps {} mixed).exportedTotals ∧
      (Metrics.steps {} mixed).ledger.retriesWord.toNat = 1 := by
  have hfew : mixed.countP Step.isRecord < UInt64.size := by decide
  obtain ⟨hcounters, -, ⟨htotal, hword⟩, -⟩ := steps_count_in_pairs hfew
  obtain ⟨hledger, hexported, -⟩ := hcounters .terminal
  obtain ⟨hreconnects, -, hnames⟩ := hcounters .reconnect
  exact ⟨hfew, hledger.trans (by decide), hexported.trans (by decide),
    hreconnects.trans (by decide), (hnames 1).2 (by decide), hword.trans (htotal.trans (by decide))⟩

end Metrics

end Rejoin
