import Filing.Cache.Digest
import Filing.Form.TemplateReader
import Filing.KeyMap

/-!
# Template caches

Reading a template is done once for each pair of source and form. The first caller that asks for a
pair takes the lead: it opens a *flight*, reads the template and commits the result. Callers that
come while the flight is open wait for it, and callers that come later find the result.

The functions of this module are the atomic steps of a caller: looking up, taking off, committing,
landing. How the steps of several callers interleave is left open; `get` is what a caller does that
no other one disturbs.
-/

namespace Filing

/-- What a cache holds under a key. -/
inductive CacheEntry (α : Type) where
  /-- Someone is reading the template. -/
  | pending (flight : Nat)
  /-- The template has been read. -/
  | ready (result : α)
deriving DecidableEq, Repr

/-- A cache of results. -/
structure Cache (α : Type) where
  /-- What is known, by key. -/
  entries : KeyMap (CacheEntry α) := ∅
  /-- The flights that have landed. -/
  landed : List Nat := []
  /-- The number of the next flight. -/
  nextFlight : Nat := 0
  /-- How many templates have been read. -/
  parses : Nat := 0
  /-- How many callers found a result at once. -/
  hits : Nat := 0
  /-- How many callers waited for another one. -/
  coalesced : Nat := 0

/-- What a caller finds when it looks up a key. -/
inductive Lookup (α : Type) where
  /-- The result. -/
  | found (result : α)
  /-- A flight to wait for. -/
  | wait (flight : Nat)
  /-- Nothing: the caller takes the lead. -/
  | lead (flight : Nat)
deriving DecidableEq, Repr

namespace Cache

variable {α : Type}

/-- Looks up a key. The counters are moved by a caller that has not waited before; a caller that
finds nothing opens a flight. -/
def look (c : Cache α) (key : String) (waited : Bool) : Cache α × Lookup α :=
  match c.entries.find? key with
  | some (.ready result) =>
    ({ c with hits := if waited then c.hits else c.hits + 1 }, .found result)
  | some (.pending flight) =>
    ({ c with coalesced := if waited then c.coalesced else c.coalesced + 1 }, .wait flight)
  | none =>
    ({ c with
      entries := c.entries.insert key (.pending c.nextFlight)
      nextFlight := c.nextFlight + 1 }, .lead c.nextFlight)

/-- The leader starts to read. -/
def takeOff (c : Cache α) : Cache α := { c with parses := c.parses + 1 }

/-- The leader stores its result. -/
def commit (c : Cache α) (key : String) (result : α) : Cache α :=
  { c with entries := c.entries.insert key (.ready result) }

/-- The flight ends, and those who wait for it may look again. -/
def land (c : Cache α) (flight : Nat) : Cache α := { c with landed := flight :: c.landed }

/-- Forgets a result and answers whether there was one. -/
def invalidate (c : Cache α) (key : String) : Cache α × Bool :=
  match c.entries.find? key with
  | some (.ready _) => ({ c with entries := c.entries.erase key }, true)
  | _ => (c, false)

/-- An entry with a result. -/
def isReady : CacheEntry α → Bool
  | .ready _ => true
  | .pending _ => false

/-- Forgets all results; flights go on. -/
def clear (c : Cache α) : Cache α :=
  { c with
    entries := ⟨c.entries.entries.filter (!isReady ·.2), c.entries.sorted.filter _⟩ }

/-- The number of results. -/
def size (c : Cache α) : Nat := (c.entries.entries.filter (isReady ·.2)).length

/-- The result for a key, for a caller that no other one disturbs; `read` makes it from the number
of the reading. A flight of someone else is not waited for. -/
def get (c : Cache α) (key : String) (read : Nat → α) : Cache α × Option α :=
  match c.look key false with
  | (c, .found result) => (c, some result)
  | (c, .wait _) => (c, none)
  | (c, .lead flight) =>
    let c := c.takeOff
    let result := read c.parses
    ((c.commit key result).land flight, some result)

end Cache

/-! ## Templates -/

/-- The bytes that stand for a request: the form code, a NUL and the source. -/
def fingerprintBytes (source formCode : String) : List UInt8 :=
  formCode.toUTF8.toList ++ 0 :: source.toUTF8.toList

/-- The key of a request. -/
def fingerprint (source formCode : String) : String :=
  (Digest.ofBytes (fingerprintBytes source formCode)).text

/-- A reading of a template, told apart from others by its number. -/
structure NumberedReading where
  /-- The number of the reading. -/
  number : Nat
  /-- What it yielded. -/
  reading : TemplateReading

/-- A cache of template readings. -/
abbrev TemplateCache := Cache NumberedReading

/-- The reading of a template, made at most once. -/
def TemplateCache.getTemplate (c : TemplateCache) (rootName source formCode : String) :
    TemplateCache × Option NumberedReading :=
  c.get (fingerprint source formCode) fun number =>
    ⟨number, TemplateReading.ofText rootName formCode source⟩

end Filing
