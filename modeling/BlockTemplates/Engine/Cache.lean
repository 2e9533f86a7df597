/-
The render cache: outputs by fingerprint, and counts of hits and misses.

An output is stored once and never replaced. Clearing drops the outputs and keeps the counts.
-/
import BlockTemplates.Engine.Fingerprint

namespace BlockTemplates

/-- what is kept from one render to the next -/
structure Cache where
  /-- the stored outputs, the latest first -/
  entries : List (Fingerprint × String)
  hits : Nat
  misses : Nat

namespace Cache

def empty : Cache :=
  ⟨[], 0, 0⟩

def find? (cache : Cache) (key : Fingerprint) : Option String :=
  cache.entries.lookup key

def hit (cache : Cache) : Cache :=
  { cache with hits := cache.hits + 1 }

def miss (cache : Cache) : Cache :=
  { cache with misses := cache.misses + 1 }

/-- stores an output, unless the fingerprint has one; gives the output that is stored then -/
def store (cache : Cache) (key : Fingerprint) (output : String) : String × Cache :=
  match cache.find? key with
  | some old => (old, cache)
  | none => (output, { cache with entries := (key, output) :: cache.entries })

def clear (cache : Cache) : Cache :=
  { cache with entries := [] }

def stats (cache : Cache) : Nat × Nat × Nat :=
  (cache.hits, cache.misses, cache.entries.length)

end Cache

end BlockTemplates
