import Std.Data.HashMap
import VbaLint.Module.Reading
import VbaLint.Sha256

/-!
# Parse caches

A cache keeps the readings of the modules asked for last, by component and digest of the text. A
module whose component and text were asked for last time is not read again. The texts that are not kept
are read first, each time that they are asked for; then the readings are put together, and those that
were not asked for are given up.
-/

namespace VbaLint

structure SourceText where
  component : String
  text : String
  deriving DecidableEq, Repr

/-- What the reading of a text is kept under: the component, and the digest of the text. -/
abbrev ReadingKey := String × String

namespace SourceText

def key (source : SourceText) : ReadingKey := (source.component, Sha256.hex source.text.toUTF8)

def parsed (source : SourceText) : ParsedModule := readModule source.component source.text

end SourceText

structure CachedReading where
  /-- The digest of the text. -/
  hash : String
  parsed : ParsedModule
  /-- The reading was kept from the time before. -/
  isReused : Bool

abbrev ReadingTable := Std.HashMap ReadingKey ParsedModule

/-- The readings kept, and how often one was found and not found so far. -/
structure ParseCache where
  entries : ReadingTable
  hits : Nat
  misses : Nat

namespace ParseCache

def empty : ParseCache := ⟨∅, 0, 0⟩

instance : Inhabited ParseCache := ⟨empty⟩

def size (cache : ParseCache) : Nat := cache.entries.size

/-- The readings of those texts that the cache does not keep, by their keys. -/
def readMissing (cache : ParseCache) (asked : List (ReadingKey × SourceText)) :
    List (ReadingKey × ParsedModule) :=
  (asked.filter fun (key, _) ↦ !cache.entries.contains key).map fun (key, source) ↦
    (key, source.parsed)

/-- The reading of one text: the one that was just made for its key, or the one kept. -/
def read (cache : ParseCache) (made : ReadingTable) (key : ReadingKey) (source : SourceText) :
    CachedReading :=
  match made[key]? with
  | some parsed => ⟨key.2, parsed, false⟩
  | none =>
    match cache.entries[key]? with
    | some parsed => ⟨key.2, parsed, true⟩
    | none => ⟨key.2, source.parsed, false⟩

/-- The readings of some texts in order, and the cache that keeps these and no others. -/
def readAll (cache : ParseCache) (sources : List SourceText) : List CachedReading × ParseCache :=
  let asked := sources.map fun source ↦ (source.key, source)
  let missing := cache.readMissing asked
  let made : ReadingTable := .ofList missing
  let readings := asked.map fun (key, source) ↦ cache.read made key source
  (readings,
    { entries := .ofList ((asked.zip readings).map fun (asked, reading) ↦
        (asked.1, reading.parsed))
      hits := cache.hits + (sources.length - missing.length)
      misses := cache.misses + missing.length })

end ParseCache

end VbaLint
