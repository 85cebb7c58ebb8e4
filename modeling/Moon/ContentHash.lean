import Moon.ActionResult
import Moon.LocalStorage
import Moon.TargetText

/-!
# Content hashes

The ways to get a content hash, the object path that is sliced from one, and the hasher that
keeps its text and its hash until another content is added.
-/

namespace Moon

namespace ContentHash

def fromHex (hex : String) : Except HashError String :=
  if isContentHash hex then .ok hex else .error (.invalidContentHash hex)

inductive Source
  | hashBytes (bytes : Bytes)
  | hashFile (content : Bytes)
  | fromHex (hex : String)
  | deserialize (text : String)
  | default
deriving DecidableEq

/-- Deserializing takes any text, and the default is the empty one. -/
def ofSource (sha256 : Bytes → String) : Source → Except HashError String
  | .hashBytes bytes | .hashFile bytes => fromHex (sha256 bytes)
  | .fromHex hex => fromHex hex
  | .deserialize text => .ok text
  | .default => .ok ""

end ContentHash

/-- `Path::join`, where an absolute text replaces the path. -/
def PathBuf.joinText (path : PathBuf) (text : List Char) : PathBuf :=
  let components := (text.splitOn '/').filterMap (fun segment =>
    Component.ofSegment (String.ofList segment))
  if text.head? = some '/' then ⟨true, components⟩
  else { path with components := path.components ++ components }

/-- `object_path` of any text, where slicing it may panic. -/
def CasStore.slicedPath (store : CasStore) (hash : String) : Option PathBuf :=
  (splitAtByte hash.toList 2).map (fun parts =>
    (store.objectsDir.joinText parts.1).joinText parts.2)

structure ContentHasher where
  contentCache : Option String := none
  contents : List String := []
  hashCache : Option String := none

namespace ContentHasher

inductive Call
  /-- The content as JSON, or none if it cannot be formatted. -/
  | hashContent (content : Option String)
  | serialize
  | generateHash
deriving DecidableEq

def jsonList (contents : List String) : String := "[" ++ String.intercalate "," contents ++ "]"

def bytesOf (text : String) : Bytes := text.toUTF8.data.toList

def hashContent (hasher : ContentHasher) : Option String → ContentHasher
  | some content => { contents := hasher.contents ++ [content] }
  | none => hasher

def serialize (hasher : ContentHasher) : String × ContentHasher :=
  match hasher.contentCache with
  | some data => (data, hasher)
  | none =>
    let data := jsonList hasher.contents
    (data, { hasher with contentCache := some data })

def intoBytes (hasher : ContentHasher) : Bytes := (hasher.contentCache.map bytesOf).getD []

variable (sha256 : Bytes → String)

def generateHash (hasher : ContentHasher) : Except HashError String × ContentHasher :=
  match hasher.hashCache with
  | some hash => (.ok hash, hasher)
  | none =>
    let hash := ContentHash.fromHex (sha256 (bytesOf hasher.serialize.1))
    (hash, { hasher.serialize.2 with hashCache := hash.toOption })

def call (hasher : ContentHasher) : Call → ContentHasher
  | .hashContent content => hasher.hashContent content
  | .serialize => hasher.serialize.2
  | .generateHash => (hasher.generateHash sha256).2

def run (calls : List Call) : ContentHasher := calls.foldl (call sha256) {}

end ContentHasher

end Moon
