import Mathlib.Data.List.MinMax
import ProtoIceberg.Secrets.ScopedSecrets

namespace ProtoIceberg

-- The length of the longest of a secret's scopes that is a prefix of the path.
def CreateSecretInput.matchScore (secret : CreateSecretInput) (path : String) : Option Nat :=
  secret.scope.filter (startsWith path ·) |>.map String.length |>.max?

-- DuckDB's choice of a secret for a path, which does not depend on what the path is read for. Nothing
-- is known about the choice among secrets that match with equally long scopes.
structure SecretLookup where
  lookupSecret : SecretManager → (path type : String) → Option CreateSecretInput
  matching     : ∀ {secrets path type secret}, lookupSecret secrets path type = some secret →
    secret ∈ secrets ∧ secret.type = type ∧ (secret.matchScore path).isSome
  longest      : ∀ {secrets path type secret}, lookupSecret secrets path type = some secret →
    ∀ other ∈ secrets, other.type = type → ∀ n ∈ other.matchScore path,
      ∃ m ∈ secret.matchScore path, n ≤ m
  found        : ∀ {secrets path type secret}, secret ∈ secrets → secret.type = type →
    (secret.matchScore path).isSome → (lookupSecret secrets path type).isSome

variable {secret : CreateSecretInput} {path : String} {n : Nat}

theorem CreateSecretInput.mem_matchScore_iff : n ∈ secret.matchScore path ↔
    (∃ scope ∈ secret.scope, startsWith path scope ∧ scope.length = n) ∧
    ∀ scope ∈ secret.scope, startsWith path scope → scope.length ≤ n := by
  simp only [matchScore, Option.mem_def, List.max?_eq_some_iff, List.mem_map, List.mem_filter,
    and_assoc, forall_exists_index, and_imp]
  refine and_congr_right fun _ => ?_
  constructor
  case mp  => exact fun h scope hmem hs => h _ scope hmem hs rfl
  case mpr => exact fun h _ scope hmem hs he => he ▸ h scope hmem hs

theorem CreateSecretInput.isSome_matchScore_iff :
    (secret.matchScore path).isSome ↔ ∃ scope ∈ secret.scope, startsWith path scope := by
  simp [matchScore, Option.isSome_iff_ne_none]

-- Among equally long matches, the secret that was created last.
def SecretLookup.latest : SecretLookup where
  lookupSecret secrets path type :=
    let candidates := secrets.filter fun secret =>
      secret.type = type ∧ (secret.matchScore path).isSome
    candidates.argmax fun secret => (secret.matchScore path).getD 0
  matching h := by
    have h := List.mem_filter.mp <| List.argmax_mem h
    exact ⟨h.left, of_decide_eq_true h.right⟩
  longest h := by
    intro other hother htype n hn
    have ⟨_, hm⟩ := of_decide_eq_true (List.mem_filter.mp <| List.argmax_mem h).right
    have hle := List.le_of_mem_argmax
      (List.mem_filter.mpr ⟨hother, decide_eq_true ⟨htype, Option.isSome_of_mem hn⟩⟩) h
    have ⟨m, hm⟩ := Option.isSome_iff_exists.mp hm
    refine ⟨m, hm, ?_⟩
    rwa [hn, hm] at hle
  found hsecret htype hmatch := by
    rw [Option.isSome_iff_ne_none, ne_eq, List.argmax_eq_none]
    exact List.ne_nil_of_mem <| List.mem_filter.mpr ⟨hsecret, decide_eq_true ⟨htype, hmatch⟩⟩

end ProtoIceberg
