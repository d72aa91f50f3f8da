import Rejoin.Decision.Error

/-! The error a session ends with, and the layers of errors. `Layer` is any error seen only by its
text and by the layer behind it; `Layer.sources` follows the layers down to the fault that started
it all. -/

namespace Rejoin

/-- The error a session ends with. -/
inductive SessionError where
  | retry (error : RetryError)
  | policy (error : PolicyError)
  deriving DecidableEq

namespace SessionError

def ofFailure (failure : Failure) : SessionError := .retry (.terminal failure)

def isPolicy : SessionError → Bool
  | .policy _ => true
  | .retry _ => false

def isTerminal : SessionError → Bool
  | .retry error => error.isTerminal
  | .policy _ => false

def isExhausted : SessionError → Bool
  | .retry error => error.isExhausted
  | .policy _ => false

def isCancelled : SessionError → Bool
  | .retry error => error.isCancelled
  | .policy _ => false

/-- Whether a new session may be worth a try. -/
def isRecoverable : SessionError → Bool
  | .retry (.exhausted _ _ _) | .retry (.hook _) => true
  | _ => false

def failure? : SessionError → Option Failure
  | .retry error => error.failure?
  | .policy _ => none

def closeStatus? (error : SessionError) : Option CloseStatus :=
  error.failure?.bind Failure.closeStatus?

def text : SessionError → String
  | .retry error => "retry error: " ++ error.text
  | .policy error => "policy error: " ++ error.text

end SessionError

/-! ### Layers -/

inductive Layer where
  | ofFault (inner : Fault)
  | ofFailure (inner : Failure)
  | ofHook (inner : HookError)
  | ofRetry (inner : RetryError)
  | ofPolicy (inner : PolicyError)
  | ofSession (inner : SessionError)

namespace Layer

def text : Layer → String
  | .ofFault inner => inner.text
  | .ofFailure inner => inner.text
  | .ofHook inner => inner.text
  | .ofRetry inner => inner.text
  | .ofPolicy inner => inner.text
  | .ofSession inner => inner.text

/-- The layer behind a layer. A terminal error and a hook's fault speak for what they wrap, and so
stand in its place: behind them is what is behind it. -/
def source? : Layer → Option Layer
  | .ofFault inner => inner.source?.map .ofFault
  | .ofFailure (.fault inner) => some (.ofFault inner)
  | .ofFailure _ => none
  | .ofHook (.fault inner) => inner.source?.map .ofFault
  | .ofHook (.message _) => none
  | .ofRetry (.terminal (.fault inner)) => some (.ofFault inner)
  | .ofRetry (.exhausted _ _ failure) => some (.ofFailure failure)
  | .ofRetry (.hook error) => some (.ofHook error)
  | .ofRetry _ => none
  | .ofPolicy _ => none
  | .ofSession (.retry error) => some (.ofRetry error)
  | .ofSession (.policy error) => some (.ofPolicy error)

/-- A bound on the number of layers behind a layer. -/
def depth : Layer → Nat
  | .ofFault inner => inner.behind.length
  | .ofFailure (.fault inner) | .ofHook (.fault inner) => inner.behind.length + 1
  | .ofFailure _ | .ofHook _ | .ofPolicy _ => 0
  | .ofRetry (.terminal (.fault inner)) => inner.behind.length + 2
  | .ofRetry (.exhausted _ _ (.fault inner)) => inner.behind.length + 2
  | .ofRetry (.hook (.fault inner)) => inner.behind.length + 2
  | .ofRetry _ => 1
  | .ofSession (.retry (.terminal (.fault inner))) => inner.behind.length + 3
  | .ofSession (.retry (.exhausted _ _ (.fault inner))) => inner.behind.length + 3
  | .ofSession (.retry (.hook (.fault inner))) => inner.behind.length + 3
  | .ofSession _ => 2

theorem depth_lt_of_source? {layer next : Layer} (h : layer.source? = some next) :
    next.depth < layer.depth := by
  have hfault : ∀ inner deeper : Fault, inner.source? = some deeper →
      deeper.behind.length < inner.behind.length := by
    rintro ⟨_, _ | ⟨first, rest⟩⟩ deeper hs
    · simp [Fault.source?] at hs
    · simp only [Fault.source?, Option.some.injEq] at hs
      subst hs
      simp
  unfold source? at h
  split at h
  case h_1 inner =>
    obtain ⟨deeper, hs, rfl⟩ := Option.map_eq_some_iff.1 h
    exact hfault _ _ hs
  case h_4 inner =>
    obtain ⟨deeper, hs, rfl⟩ := Option.map_eq_some_iff.1 h
    exact Nat.lt_succ_of_lt (hfault _ _ hs)
  case h_7 failure =>
    cases h
    cases failure <;> simp [depth]
  case h_8 error =>
    cases h
    cases error <;> simp [depth]
  case h_11 error =>
    cases h
    rcases error with (failure | ⟨_, _, failure⟩ | error | _ | _)
    · cases failure <;> simp [depth]
    · cases failure <;> simp [depth]
    · cases error <;> simp [depth]
    · simp [depth]
    · simp [depth]
  case h_2 | h_6 | h_12 =>
    cases h
    simp [depth]
  case h_3 | h_5 | h_9 | h_10 => cases h

/-- The texts of the layers behind a layer, nearest first. -/
def sources (layer : Layer) : List String :=
  match h : layer.source? with
  | none => []
  | some next =>
    have := depth_lt_of_source? h
    next.text :: next.sources
termination_by layer.depth

end Layer

end Rejoin
