import Monomorph.Digest
import Monomorph.Host
import Monomorph.Pool
import Monomorph.TypeRef.Wire

/-!
# The pool cache

Pools of modules kept in files across runs, under the digest of the module file that they were
taken from. An entry of another schema and an entry that is not there are no entries; one that
cannot be read is an error, which costs a fresh scan and nothing else.
-/

namespace Monomorph

structure PoolEntry where
  schema : UInt16 := 0
  module : Text := []
  types : Option (List TypeRef) := none

namespace PoolEntry

open Binary

/-- The schema that is written, and the only one that is used. -/
def currentSchema : UInt16 := 1

def toValue (e : PoolEntry) : Value :=
  .map [entry "Schema" (.int .u16 e.schema.toUInt64), entry "Module" (.str e.module),
    entry "Types" ((e.types.map fun ts => .arr (TypeRef.toValues ts)).getD .nil)]

def fields : List (Binary.Field PoolEntry) :=
  [⟨"Schema", fun e v => v.bits?.map fun b => { e with schema := b.toUInt16 }⟩,
   ⟨"Module", fun e v => v.bytes?.map fun x => { e with module := x }⟩,
   ⟨"Types", fun e v =>
      match v.items? with
      | none => none
      | some none => some { e with types := none }
      | some (some items) =>
        (TypeRef.readEach (e.types.getD []) items).map fun x => { e with types := some x }⟩]

/-- The bytes of an entry under the current schema. -/
def encode (e : PoolEntry) : List UInt8 := ({ e with schema := currentSchema } : PoolEntry).toValue.render

def decode (bytes : List UInt8) : Option PoolEntry :=
  (Value.parse bytes).bind fun (v, _) => readRecord {} fields {} v

end PoolEntry

inductive EntryError where
  | file (error : FileError)
  | undecodable
deriving DecidableEq

/-- The variables that say where a user keeps caches. -/
structure UserDirs where
  cacheHome : Text := []
  home : Text := []

inductive CacheError where
  | noHome
  | file (error : FileError)

def CacheError.message : CacheError → Text
  | .noHome => "$HOME is not defined"
  | .file e => e.message

structure PoolCache where
  dir : Text

namespace PoolCache

variable {m : Type → Type} [Monad m] [Host m]

/-- The directory of an application's cache when none is given. -/
def defaultDir (user : UserDirs) (app : Text) : Except CacheError Text :=
  if user.cacheHome ≠ [] then .ok (Path.join [user.cacheHome, app])
  else if user.home ≠ [] then .ok (Path.join [user.home, ".cache", app])
  else .error .noHome

/-- Opens the cache in `dir`, or in the user's cache directory when `dir` is empty. -/
def openAt (user : UserDirs) (app dir : Text) : ExceptT CacheError m PoolCache := do
  let dir ← if dir = [] then ExceptT.mk (pure (defaultDir user app)) else pure dir
  ExceptT.adapt .file (Host.makeDirs dir)
  return { dir := dir }

def pathFor (c : PoolCache) (key : Digest) : Text :=
  Path.join [c.dir, "pools", key.render ++ ".mp"]

/-- The start of the names under which entries are written before they are moved. -/
def asideStem : Text := "tmp-"

/-- Writes an entry in place of any earlier one. -/
def put (c : PoolCache) (key : Digest) (e : PoolEntry) : ExceptT FileError m Unit := do
  let path := c.pathFor key
  let dir := Path.parent path
  Host.makeDirs dir
  Host.writeAside id dir asideStem path (.ok e.encode)

/-- Reads an entry, whatever its schema; there may be none. -/
def read (c : PoolCache) (key : Digest) : ExceptT EntryError m (Option PoolEntry) := do
  match ← Host.outcome (Host.read (c.pathFor key)) with
  | .error e => if e.cause = .missing then return none else throw (.file e)
  | .ok bytes =>
    match PoolEntry.decode bytes with
    | none => throw .undecodable
    | some e => return some e

/-- Whether an entry may be used. -/
def isCurrent (e : PoolEntry) : Bool := e.schema = PoolEntry.currentSchema

/-- Removes every entry. The directory is moved away first, so that no half-emptied cache is seen. -/
def dropAll (c : PoolCache) : ExceptT FileError m Unit := do
  let old := c.dir ++ ".old-" ++ (← (Host.now : m Instant)).digits
  match ← Host.outcome (Host.replace c.dir old) with
  | .error e => if e.cause = .missing then return else throw e
  | .ok _ => do
    Host.removeAll old
    Host.makeDirs c.dir

end PoolCache

/-- Pools served from a cache during a run: the digests of the modules that are known, by their
index, and counts of what happened. -/
structure PoolShelf where
  cache : PoolCache
  digests : List (Nat × Digest) := []
  hits : Nat := 0
  misses : Nat := 0
  errors : Nat := 0

namespace PoolShelf

variable {m : Type → Type} [Monad m] [Host m]

def track (s : PoolShelf) (module : Nat) (d : Digest) : PoolShelf :=
  { s with digests := (module, d) :: s.digests }

/-- The digest of a module, if it is known and not the zero digest. -/
def digest? (s : PoolShelf) (module : Nat) : Option Digest :=
  (s.digests.lookup module).filter fun d => !d.isZero

/-- The pool of a module, if the cache holds it. -/
def load (s : PoolShelf) (module : Nat) : m (Option Pool × PoolShelf) := do
  let missed : PoolShelf := { s with misses := s.misses + 1 }
  match s.digest? module with
  | none => return (none, missed)
  | some d =>
    match ← (s.cache.read d).run with
    | .error _ => return (none, { missed with errors := s.errors + 1 })
    | .ok (some e) =>
      if PoolCache.isCurrent e then
        return (some (Pool.ofList (e.types.getD [])), { s with hits := s.hits + 1 })
      else return (none, missed)
    | .ok none => return (none, missed)

/-- The entry for a pool; an empty pool has no list of types. -/
def entryFor (name : Text) (pool : Pool) : PoolEntry :=
  { module := name, types := if pool.types.isEmpty then none else some pool.types }

/-- Keeps the pool of a module for later runs. -/
def store (s : PoolShelf) (module : Nat) (name : Text) (pool : Pool) : m PoolShelf := do
  match s.digest? module with
  | none => return s
  | some d =>
    match ← (s.cache.put d (entryFor name pool)).run with
    | .ok _ => return s
    | .error _ => return { s with errors := s.errors + 1 }

end PoolShelf

end Monomorph
