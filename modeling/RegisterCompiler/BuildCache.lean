/-
Finished builds that are kept for later.

An image is kept under the digest of its source and of all settings that shape
its code.  A build first looks for a kept image; one that cannot be read is
built and kept again.  The kept images stand for the table of a database of the
package modernc.org/sqlite, whose primary key is the key of the image: a new row
replaces one with its key, a look-up finds the row of a key, rows are counted and
deleted by their time, and a closed database refuses all of these.
-/

import RegisterCompiler.Build
import RegisterCompiler.Digest

set_option autoImplicit false

namespace RegisterCompiler

open Text (Bytes)

/-! ### Keys -/

namespace AddressRange

def keyText (range : AddressRange) (letter : String) : String :=
  s!"|{letter}{range.first.toNat}-{range.last.toNat}"

end AddressRange

namespace BuildOptions

def keyText (options : BuildOptions) : String :=
  let layout := options.generator.layout
  let base := (layout.oversizedBase.map fun base => s!"|b{base}").getD ""
  s!"v{Image.currentVersion}|r{options.generator.registers}" ++
    s!"|o{options.simplify}|p{options.generator.propagate}" ++
    layout.loop.keyText "l" ++ layout.scalars.keyText "s" ++ layout.arrays.keyText "a" ++
    base ++ "|"

/-- The bytes whose digest is the key of a source. -/
def keyBytes (options : BuildOptions) (source : Bytes) : Bytes :=
  Text.encode options.keyText ++ source

def key (options : BuildOptions) (source : Bytes) : String :=
  (Digest.ofBytes (options.keyBytes source)).text

end BuildOptions

/-! ### Kept images -/

/-- A kept image in binary form and the second it was kept at. -/
structure KeptImage where
  data : Bytes
  created : Int
deriving Repr, DecidableEq, Inhabited

/-- The kept images by key.  A closed cache keeps them but gives none away. -/
structure BuildCache where
  path : String
  images : OrderedMap String KeptImage
  isOpen : Bool
deriving Repr, DecidableEq, Inhabited

inductive CacheActivity where
  | querying
  | saving
  | counting
  | pruning
deriving Repr, DecidableEq

inductive CacheFault where
  | miss
  | unreadable (fault : ImageFault)
  | closed (activity : CacheActivity)
deriving Repr, DecidableEq

namespace CacheFault

def message : CacheFault → String
  | miss => "not in cache"
  | unreadable fault => fault.message
  | closed .querying => "querying image: sql: database is closed"
  | closed .saving => "saving image: sql: database is closed"
  | closed .counting => "counting images: sql: database is closed"
  | closed .pruning => "pruning: sql: database is closed"

end CacheFault

namespace BuildCache

def empty (path : String) : BuildCache :=
  ⟨path, .empty, true⟩

def close (cache : BuildCache) : BuildCache :=
  { cache with isOpen := false }

def reopen (cache : BuildCache) : BuildCache :=
  { cache with isOpen := true }

def put (cache : BuildCache) (now : Int) (key : String) (image : Image) :
    Except CacheFault BuildCache :=
  if cache.isOpen then
    .ok { cache with images := cache.images.set key ⟨image.encode, now⟩ }
  else .error (.closed .saving)

def get (cache : BuildCache) (key : String) : Except CacheFault Image :=
  if cache.isOpen then
    match cache.images.get? key with
    | none => .error .miss
    | some kept => (Image.decode kept.data).mapError .unreadable
  else .error (.closed .querying)

def size (cache : BuildCache) : Except CacheFault Nat :=
  if cache.isOpen then .ok cache.images.size else .error (.closed .counting)

/-- Drops the images kept more than `age` seconds ago, and counts them. -/
def prune (cache : BuildCache) (now age : Int) : Except CacheFault (Nat × BuildCache) :=
  if cache.isOpen then
    let isOld (entry : String × KeptImage) : Bool := entry.2.created < now - age
    .ok ((cache.images.entries.filter isOld).length,
      { cache with images := cache.images.filter fun entry => !isOld entry })
  else .error (.closed .pruning)

def build (cache : BuildCache) (now : Int) (options : BuildOptions) (id : String)
    (cancelled : Bool) (source : Bytes) : Except BuildFault Build × BuildCache :=
  let key := options.key source
  match cache.get key with
  | .ok image => (.ok ⟨image, none, [], true⟩, cache)
  | .error _ =>
      match RegisterCompiler.build options id cancelled source with
      | .error fault => (.error fault, cache)
      | .ok built => (.ok built, (cache.put now key built.image).toOption.getD cache)

end BuildCache

end RegisterCompiler
