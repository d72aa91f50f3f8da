import Rejoin.Session.Error

/-! What is told by following an error down to what it started with. An error tells of its wrappings, and
then of all levels of the fault or other reason in it, each once and from the top down. It makes no
difference that some wrappings stand in the place of what they wrap: what such a one tells for itself is
the level that is skipped behind it. -/

namespace Rejoin

/-! ### Levels and wrappings -/

/-- The text of a fault, and those of the faults behind it. -/
def Fault.levels (fault : Fault) : List String := fault.text :: fault.behind

/-- The levels of what a failure started with: a fault, or the failure itself. -/
def Failure.levels : Failure → List String
  | .fault inner => inner.levels
  | failure => [failure.text]

/-- What a failure tells before its levels. -/
def Failure.wrappings : Failure → List String
  | .fault inner => ["gateway fault: " ++ inner.text]
  | _ => []

def HookError.levels : HookError → List String
  | .fault inner => inner.levels
  | .message text => [text]

namespace RetryError

def levels : RetryError → List String
  | .terminal failure | .exhausted _ _ failure => failure.levels
  | .hook error => error.levels
  | error => [error.text]

def wrappings : RetryError → List String
  | .terminal failure => failure.wrappings
  | .exhausted attempts limit failure =>
    ("Retries exhausted: " ++ toString attempts.toNat ++ "/" ++ toString limit.toNat) ::
      failure.wrappings
  | .hook error => ["pre-retry hook failed: " ++ error.text]
  | _ => []

end RetryError

namespace SessionError

def levels : SessionError → List String
  | .retry error => error.levels
  | .policy error => [error.text]

def wrappings : SessionError → List String
  | .retry error => error.wrappings
  | .policy _ => []

end SessionError

/-! ### Following the layers -/

namespace Layer

theorem sources_of_none {layer : Layer} (h : layer.source? = none) : layer.sources = [] := by
  rw [sources]
  split
  case h_1 => rfl
  case h_2 next hnext => cases h.symm.trans hnext

theorem sources_of_some {layer : Layer} (next : Layer) (h : layer.source? = some next) :
    layer.sources = next.text :: next.sources := by
  rw [sources]
  split
  case h_1 hnone => cases h.symm.trans hnone
  case h_2 other hother =>
      obtain rfl := Option.some.inj (h.symm.trans hother)
      rfl

/-- What stands in the place of another layer tells the same behind it. -/
theorem sources_congr {layer other : Layer} (h : layer.source? = other.source?) :
    layer.sources = other.sources := by
  cases hnext : other.source? with
  | none => rw [sources_of_none hnext, sources_of_none (h.trans hnext)]
  | some next => rw [sources_of_some next hnext, sources_of_some next (h.trans hnext)]

theorem sources_ofFault (fault : Fault) : (ofFault fault).sources = fault.behind := by
  obtain ⟨text, behind⟩ := fault
  induction behind generalizing text with
  | nil => exact sources_of_none rfl
  | cons next behind ih =>
      rw [sources_of_some (ofFault ⟨next, behind⟩) rfl, ih]
      rfl

theorem text_cons_sources_ofFailure (failure : Failure) :
    failure.text :: (ofFailure failure).sources = failure.wrappings ++ failure.levels := by
  cases failure with
  | fault inner =>
      rw [sources_of_some (ofFault inner) rfl, sources_ofFault]
      rfl
  | closed | invalidSession | partialDisconnect => exact congrArg _ (sources_of_none rfl)

/-- A hook's fault stands in the place of the error that carries it. -/
theorem text_cons_sources_ofHook (error : HookError) :
    error.text :: (ofHook error).sources = error.levels := by
  cases error with
  | message text => exact congrArg _ (sources_of_none rfl)
  | fault inner =>
      have hplace : (ofHook (.fault inner)).source? = (ofFault inner).source? := rfl
      rw [sources_congr hplace, sources_ofFault]
      rfl

theorem text_cons_sources_ofRetry (error : RetryError) :
    error.text :: (ofRetry error).sources = error.wrappings ++ error.levels := by
  cases error with
  | terminal failure =>
      have hplace : (ofRetry (.terminal failure)).source? = (ofFailure failure).source? := by
        cases failure <;> rfl
      rw [sources_congr hplace]
      exact text_cons_sources_ofFailure failure
  | exhausted attempts limit failure =>
      rw [sources_of_some (ofFailure failure) rfl]
      exact congrArg _ (text_cons_sources_ofFailure failure)
  | hook error =>
      rw [sources_of_some (ofHook error) rfl]
      exact congrArg _ (text_cons_sources_ofHook error)
  | missingCause | cancelled => exact congrArg _ (sources_of_none rfl)

theorem sources_ofSession (error : SessionError) :
    (ofSession error).sources = error.wrappings ++ error.levels := by
  cases error with
  | retry error =>
      rw [sources_of_some (ofRetry error) rfl]
      exact text_cons_sources_ofRetry error
  | policy error =>
      rw [sources_of_some (ofPolicy error) rfl]
      exact congrArg _ (sources_of_none rfl)

/-- **No level is lost.** Behind every error of a session are the texts of its wrappings, and then those of
all levels of what it started with, in order and each once. Around a fault, however many there are behind
it, these wrappings are the failure, with the spent budget before it if that is why there is no further
attempt, or the error of a hook. Where there is no fault, the last text is that of the failure, or of the
hook's error, itself. -/
theorem tells_all_levels :
    (∀ error : SessionError, (ofSession error).sources = error.wrappings ++ error.levels) ∧
    (∀ fault : Fault,
      (ofSession (.retry (.terminal (.fault fault)))).sources =
        ("gateway fault: " ++ fault.text) :: fault.text :: fault.behind ∧
      (∀ attempts limit, (ofSession (.retry (.exhausted attempts limit (.fault fault)))).sources =
        ("Retries exhausted: " ++ toString attempts.toNat ++ "/" ++ toString limit.toNat) ::
          ("gateway fault: " ++ fault.text) :: fault.text :: fault.behind) ∧
      (ofSession (.retry (.hook (.fault fault)))).sources =
        ("pre-retry hook failed: " ++ fault.text) :: fault.text :: fault.behind) ∧
    (∀ failure : Failure, (∀ fault, failure ≠ .fault fault) →
      (ofSession (.retry (.terminal failure))).sources = [failure.text] ∧
      ∀ attempts limit, (ofSession (.retry (.exhausted attempts limit failure))).sources =
        ["Retries exhausted: " ++ toString attempts.toNat ++ "/" ++ toString limit.toNat,
          failure.text]) ∧
    ∀ text, (ofSession (.retry (.hook (.message text)))).sources =
      ["pre-retry hook failed: " ++ text, text] := by
  refine ⟨sources_ofSession, fun fault => ⟨sources_ofSession _, fun _ _ => sources_ofSession _,
    sources_ofSession _⟩, fun failure hfailure => ?_, fun _ => sources_ofSession _⟩
  cases failure with
  | fault inner => exact absurd rfl (hfailure inner)
  | closed | invalidSession | partialDisconnect =>
      exact ⟨sources_ofSession _, fun _ _ => sources_ofSession _⟩

/-- A session that was invalidated once too often has no fault behind it. -/
theorem tells_all_levels_of_invalidSession :
    (∀ fault, Failure.invalidSession ≠ .fault fault) ∧
      (ofSession (.retry (.exhausted 11 10 .invalidSession))).sources =
        ["Retries exhausted: 11/10", "gateway session was invalidated"] := by
  obtain ⟨-, -, hfailure, -⟩ := tells_all_levels
  exact ⟨nofun, (hfailure .invalidSession nofun).2 11 10⟩

end Layer

end Rejoin
