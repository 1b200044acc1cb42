import JavaGenerics.Index
import JavaGenerics.Query

/-!
# Remembering declarations

Queries ask for the same few classes over and over.  A cache keeps a copy of what it was told and
counts how often that helped.

* `EdgeCache` — the copies, with a count of hits and one of misses.
* `EdgeCache.fetch` — one look-up through the cache.  A failure is a miss that leaves no copy.
* `EdgeCache.answer` — answers a whole question through the cache.

A copy stays until it is evicted: **the cache does not notice when a declaration changes.**
-/

namespace JavaGenerics

/-- Copies of the walkable parts of declarations.  The counts have no bound, and 64 bits are enough
for them as long as there are fewer than `2 ^ 64` look-ups. -/
structure EdgeCache where
  entries : Index ClassId Edges := {}
  hits : Nat := 0
  misses : Nat := 0
deriving Inhabited, Repr

namespace EdgeCache

/-- The copy kept for a class.  Finding one counts as a hit; finding none does not count. -/
def get (cache : EdgeCache) (id : ClassId) : Option Edges × EdgeCache :=
  match cache.entries.get? id with
  | some edges => (some edges, { cache with hits := cache.hits + 1 })
  | none => (none, cache)

/-- The copy kept for a class, or else what `compute` yields, which is then kept. -/
def fetch (cache : EdgeCache) (id : ClassId) (compute : Except DeclError Edges) :
    Except DeclError Edges × EdgeCache :=
  match cache.get id with
  | (some edges, cache) => (.ok edges, cache)
  | (none, cache) =>
    let cache := { cache with misses := cache.misses + 1 }
    match compute with
    | .ok edges => (.ok edges, { cache with entries := cache.entries.insert id edges })
    | .error error => (.error error, cache)

/-- Forgets the copy kept for a class, and tells whether there was one. -/
def evict (cache : EdgeCache) (id : ClassId) : Bool × EdgeCache :=
  (cache.entries.contains id, { cache with entries := cache.entries.erase id })

/-- Forgets every copy.  The counts go on. -/
def clear (cache : EdgeCache) : EdgeCache :=
  { cache with entries := {} }

/-- Answers a question, with every look-up going through the cache. -/
def answer {α : Type} (source : ClassId → Except DeclError Edges) :
    Query α → EdgeCache → Except DeclError α × EdgeCache
  | .done answer, cache => (.ok answer, cache)
  | .fail error, cache => (.error error, cache)
  | .lookup id next, cache =>
    match cache.fetch id (source id) with
    | (.ok edges, cache) => answer source (next edges) cache
    | (.error error, cache) => (.error error, cache)

end EdgeCache

end JavaGenerics
