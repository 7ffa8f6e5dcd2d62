/-!
Each invalidation counts the generation on, and a computation that began in another generation than
the present one does not store its result.
-/
namespace Agora

structure CacheEntry (α : Type) where
  value : α
  /-- In milliseconds. -/
  writtenAt : Nat
  deriving DecidableEq, Repr

structure ReadCache (α : Type) where
  ttl : Nat
  entry : Option (CacheEntry α) := none
  generation : UInt64 := 0
  deriving DecidableEq, Repr

namespace ReadCache

def defaultTtl : Nat := 60000

def isFreshAt (ttl now : Nat) (e : CacheEntry α) : Bool :=
  now - e.writtenAt < ttl

def get? (cache : ReadCache α) (now : Nat) : Option α :=
  (cache.entry.filter (isFreshAt cache.ttl now)).map (·.value)

def isFresh (cache : ReadCache α) (now : Nat) : Bool :=
  (cache.get? now).isSome

def lookup (cache : ReadCache α) (now : Nat) : Option α × UInt64 :=
  (cache.get? now, cache.generation)

def store (cache : ReadCache α) (now : Nat) (value : α) (generation : UInt64) : ReadCache α :=
  if cache.generation = generation then { cache with entry := some ⟨value, now⟩ } else cache

def invalidate (cache : ReadCache α) : ReadCache α :=
  { cache with entry := none, generation := cache.generation + 1 }

end ReadCache

structure ClockedCache (α : Type) where
  cache : ReadCache α
  now : Nat := 0
  deriving DecidableEq, Repr

namespace ClockedCache

def get? (c : ClockedCache α) : Option α :=
  c.cache.get? c.now

def isFresh (c : ClockedCache α) : Bool :=
  c.cache.isFresh c.now

def advance (c : ClockedCache α) (ms : Nat) : ClockedCache α :=
  { c with now := c.now + ms }

def invalidate (c : ClockedCache α) : ClockedCache α :=
  { c with cache := c.cache.invalidate }

def store (c : ClockedCache α) (value : α) (generation : UInt64) : ClockedCache α :=
  { c with cache := c.cache.store c.now value generation }

/-- The fresh value; without one, the result of `compute`, which is stored if it succeeded and no
invalidation came between. The cache is free while the computation runs. -/
def getOrTryCompute (compute : ClockedCache α → Except ε α × ClockedCache α)
    (c : ClockedCache α) : Except ε α × ClockedCache α :=
  match c.cache.lookup c.now with
  | (some value, _) => (.ok value, c)
  | (none, generation) =>
      match compute c with
      | (.ok value, c') => (.ok value, c'.store value generation)
      | (.error e, c') => (.error e, c')

def getOrCompute (compute : ClockedCache α → α × ClockedCache α) (c : ClockedCache α) :
    α × ClockedCache α :=
  match c.cache.lookup c.now with
  | (some value, _) => (value, c)
  | (none, generation) =>
      let (value, c') := compute c
      (value, c'.store value generation)

end ClockedCache

end Agora
