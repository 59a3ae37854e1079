import Fboss.Lib.PartialMap
import Fboss.Lib.Run

/-!
# Shared SAI objects: `RefMap` and `SaiObjectStore`

A `RefMap` (`fboss/lib/RefMap.h`) keeps, by key, a weak reference to an
object shared by its users: `refOrEmplace` hands out a new handle to the
object of a key, making one if there is none, and `ref` another handle to an
existing one. Each object is made with a deleter that, when its last handle is
dropped, erases the entry of the object's key from the map and deletes the
object. `clear()` forgets every entry while the objects live on.
`SaiObjectStore` keeps the SAI objects of one type in a `RefMap` by adapter
host key; a `SaiObject` creates its adapter object when it is made and
removes it when it is deleted.

The model numbers the objects in the order they are made, and counts the
handles to each: an object lives, and so does its adapter object, while it has
a handle. The deleter erases by key whatever entry the key has then.
-/

namespace Fboss

variable {K V : Type} [DecidableEq K]

/-- An object made by `refOrEmplace`: the key its deleter erases, its value,
and the number of handles to it (`use_count`). -/
structure RefObject (K V : Type) where
  key : K
  value : V
  handles : Nat
  deriving DecidableEq, Repr

/-- A `RefMap`: the object number of each key's weak reference, and every
object made, by number. -/
structure RefMap (K V : Type) where
  map : K → Option Nat
  objects : List (RefObject K V)

namespace RefMap

/-- A map with no entry and no object. -/
def empty : RefMap K V :=
  ⟨PartialMap.empty, []⟩

/-- `weak_ptr::lock()`: the object, while it has a handle. -/
def lock (m : RefMap K V) (id : Nat) : Option (RefObject K V) :=
  (m.objects[id]?).filter fun o => 0 < o.handles

/-- One more handle to object `id`. -/
def addHandle (m : RefMap K V) (id : Nat) : RefMap K V :=
  { m with objects := m.objects.modify id fun o => { o with handles := o.handles + 1 } }

/-- `refOrEmplace(k, args)`: a new handle to the object of `k`, whether it was
made now, or `none` for the null handle `lock()` gives back for an entry whose
object is gone. A new object gets the deleter that erases `k`. -/
def refOrEmplace (m : RefMap K V) (k : K) (v : V) : RefMap K V × Option Nat × Bool :=
  match m.map k with
  | some id =>
    match m.lock id with
    | some _ => (m.addHandle id, some id, false)
    | none => (m, none, false)
  | none =>
    let id := m.objects.length
    ({ map := Function.update m.map k (some id), objects := m.objects ++ [⟨k, v, 1⟩] },
      some id, true)

/-- `ref(k)`: a new handle to the object of `k`, or the null handle. -/
def ref (m : RefMap K V) (k : K) : RefMap K V × Option Nat :=
  match m.map k with
  | some id =>
    match m.lock id with
    | some _ => (m.addHandle id, some id)
    | none => (m, none)
  | none => (m, none)

/-- `get(k)`: the object of `k`, while it has a handle; the handle `ref`
takes for it is dropped again. -/
def get (m : RefMap K V) (k : K) : Option Nat :=
  (m.map k).bind fun id => (m.lock id).map fun _ => id

/-- A write through a handle to object `id`. -/
def modifyValue (m : RefMap K V) (id : Nat) (f : V → V) : RefMap K V :=
  { m with objects := m.objects.modify id fun o => { o with value := f o.value } }

/-- `referenceCount(k)`: the handles to the object of `k`. -/
def referenceCount (m : RefMap K V) (k : K) : Nat :=
  match m.map k with
  | some id => ((m.lock id).map (·.handles)).getD 0
  | none => 0

/-- `clear()`: every entry goes; the objects stay. -/
def clear (m : RefMap K V) : RefMap K V :=
  { m with map := PartialMap.empty }

/-- A handle to object `id` is dropped; with its last handle the object's
deleter erases its key's entry, whichever object that entry is of. -/
def dropHandle (m : RefMap K V) (id : Nat) : RefMap K V :=
  match m.objects[id]? with
  | some o =>
    let m := { m with objects := m.objects.set id { o with handles := o.handles - 1 } }
    if o.handles = 1 then { m with map := PartialMap.erase m.map o.key } else m
  | none => m

/-- The numbers of the live objects of key `k`. -/
def liveObjects (m : RefMap K V) (k : K) : List Nat :=
  (List.range m.objects.length).filter fun id =>
    (m.lock id).any fun o => decide (o.key = k)

end RefMap

/-- A `SaiObjectStore` of one object type: its `RefMap` by adapter host key,
whose values are the objects' attributes. -/
structure SaiObjectStore (K A : Type) where
  objects : RefMap K A

namespace SaiObjectStore

/-- `setObject(adapterHostKey, attributes)`: a handle to the object of the
key, made with the attributes, or an existing one given them. A null handle is
dereferenced when the key's entry is of an object that is gone. -/
def setObject (s : SaiObjectStore K V) (adapterHostKey : K) (attributes : V) :
    Except String (SaiObjectStore K V × Nat) :=
  match s.objects.refOrEmplace adapterHostKey attributes with
  | (m, some id, true) => pure (⟨m⟩, id)
  | (m, some id, false) =>
    -- `setAttributes` on the existing object
    pure (⟨{ m with objects := m.objects.modify id fun o => { o with value := attributes } }⟩, id)
  | (_, none, _) => throw "null shared_ptr dereferenced"

/-- `get(adapterHostKey)`. -/
def get (s : SaiObjectStore K V) (adapterHostKey : K) : SaiObjectStore K V × Option Nat :=
  let r := s.objects.ref adapterHostKey
  (⟨r.1⟩, r.2)

/-- `release()`. -/
def release (s : SaiObjectStore K V) : SaiObjectStore K V :=
  ⟨s.objects.clear⟩

end SaiObjectStore

/-- What is done to a store: an object set or got (the caller keeps the
handle), the store released, or a handle dropped. -/
inductive StoreEvent (K V : Type) where
  | setObject (adapterHostKey : K) (attributes : V)
  | get (adapterHostKey : K)
  | release
  | dropHandle (id : Nat)
  deriving DecidableEq, Repr

namespace SaiObjectStore

/-- One event; a call that fails leaves the store as it was. -/
def step (s : SaiObjectStore K V) : StoreEvent K V → SaiObjectStore K V
  | .setObject k a => ((s.setObject k a).toOption.map Prod.fst).getD s
  | .get k => (s.get k).1
  | .release => s.release
  | .dropHandle id => ⟨s.objects.dropHandle id⟩

/-- A handle is dropped only by its holder: the object has one. -/
def Allowed (s : SaiObjectStore K V) : StoreEvent K V → Prop
  | .dropHandle id => ∃ o ∈ s.objects.objects[id]?, 0 < o.handles
  | _ => True

instance (s : SaiObjectStore K V) (e : StoreEvent K V) : Decidable (s.Allowed e) :=
  match e with
  | .dropHandle id => inferInstanceAs (Decidable (∃ o ∈ s.objects.objects[id]?, 0 < o.handles))
  | .setObject _ _ | .get _ | .release => isTrue trivial

/-- An empty store. -/
def empty : SaiObjectStore K V :=
  ⟨RefMap.empty⟩

end SaiObjectStore

/-- The store is released while a handle to the object of key 7 is held, and
the key's object is made again. When the old object's last handle is dropped,
its deleter erases the key's entry, which is the new object's: the key has no
entry while the new object lives, and the next `setObject` makes a third
object. Two live objects, both made since the release, and so two adapter
objects, now have key 7. -/
theorem deleter_erases_newer_entry :
    let es : List (StoreEvent Nat Nat) :=
      [.setObject 7 0, .release, .setObject 7 1, .dropHandle 0, .setObject 7 2]
    Run.Guarded SaiObjectStore.step SaiObjectStore.Allowed SaiObjectStore.empty es ∧
      (Run.run SaiObjectStore.step SaiObjectStore.empty (es.take 4)).objects.map 7 = none ∧
      (Run.run SaiObjectStore.step SaiObjectStore.empty (es.take 4)).objects.liveObjects 7 = [1] ∧
      (Run.run SaiObjectStore.step SaiObjectStore.empty es).objects.liveObjects 7 = [1, 2] ∧
      (Run.run SaiObjectStore.step SaiObjectStore.empty es).objects.map 7 = some 2 := by
  decide +kernel

end Fboss
