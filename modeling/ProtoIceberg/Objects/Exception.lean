-- DuckDB's exceptions and iceberg-cpp's errors, as far as the extension throws or inspects them.
namespace ProtoIceberg

inductive ExceptionType
  | io
  | transaction
  | catalog
  | invalidInput
  | internal
  | notImplemented
  | binder
  | invalidConfiguration
  deriving DecidableEq, Repr

structure Exception where
  type    : ExceptionType
  message : String
  deriving DecidableEq, Repr

inductive ErrorKind
  | noSuchNamespace
  | noSuchTable
  | notImplemented
  | other (code : Nat)
  deriving DecidableEq, Repr

structure Error where
  kind    : ErrorKind
  message : String
  deriving DecidableEq, Repr

abbrev Result := Except Error

def unwrapOrThrow (result : Result α) (message : String) : Except Exception α :=
  match result with
  | .ok value    => .ok value
  | .error error => .error { type := .io, message := message ++ ": " ++ error.message }

@[simp]
theorem unwrapOrThrow_ok {message : String} {value : α} :
    unwrapOrThrow (.ok value) message = .ok value :=
  rfl

end ProtoIceberg

namespace Except

theorem bind_eq_ok_iff {ε α β : Type} {x : Except ε α} {f : α → Except ε β} {b : β} :
    x >>= f = .ok b ↔ ∃ a, x = .ok a ∧ f a = .ok b := by
  cases x
  case error e => exact ⟨nofun, fun ⟨_, h, _⟩ => nomatch h⟩
  case ok a    => exact ⟨fun h => ⟨a, rfl, h⟩, fun ⟨_, h, h'⟩ => Except.ok.inj h ▸ h'⟩

theorem map_eq_ok_iff {ε α β : Type} {x : Except ε α} {f : α → β} {b : β} :
    f <$> x = .ok b ↔ ∃ a, x = .ok a ∧ f a = b := by
  cases x
  case error => exact ⟨nofun, fun ⟨_, h, _⟩ => nomatch h⟩
  case ok a  => exact ⟨fun h => ⟨a, rfl, Except.ok.inj h⟩, fun ⟨_, h, h'⟩ => Except.ok.inj h ▸ h' ▸ rfl⟩

end Except
