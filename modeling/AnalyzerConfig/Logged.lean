import AnalyzerConfig.Failure

namespace AnalyzerConfig

inductive LogRecord where
  | warn (text : String)
  | info (text : String)
  | debug (text : String)
deriving DecidableEq

def LogRecord.line : LogRecord → String
  | .warn text => "WARN " ++ text
  | .info text => "INFO " ++ text
  | .debug text => "DEBUG " ++ text

/-- A result or a failure, and what was logged until then. -/
structure Logged (α : Type) where
  log : List LogRecord
  result : Except Failure α

namespace Logged

variable {α β : Type}

def fail (f : Failure) : Logged α := ⟨[], .error f⟩

def ofExcept (r : Except Failure α) : Logged α := ⟨[], r⟩

def record (r : LogRecord) : Logged Unit := ⟨[r], .ok ()⟩

protected def bind (x : Logged α) (f : α → Logged β) : Logged β :=
  match x.result with
  | .error e => ⟨x.log, .error e⟩
  | .ok a => ⟨x.log ++ (f a).log, (f a).result⟩

instance : Monad Logged where
  pure a := ⟨[], .ok a⟩
  bind := Logged.bind

@[simp] theorem result_pure (a : α) : (pure a : Logged α).result = .ok a := rfl

@[simp] theorem result_bind (x : Logged α) (f : α → Logged β) :
    (x >>= f).result = x.result.bind fun a => (f a).result := by
  show (Logged.bind x f).result = _
  unfold Logged.bind Except.bind
  cases x.result <;> rfl

end Logged

end AnalyzerConfig
