import DeviceColumns.Column.Names
import DeviceColumns.Column.Type
import DeviceColumns.Engine
import DeviceColumns.Kernel.Widening

/-!
What can be asked of a session. Requests refer to objects by name; a pointer is an address, or an
offset from the address of a named object.
-/

namespace DeviceColumns

set_option autoImplicit false

/-- An address, given directly or relative to a named object. -/
inductive Pointer where
  | absolute (address : Nat)
  | relative (object : String) (offset : Int)

structure ViewSpec where
  type : ColumnType
  rows : Nat
  data : Option Pointer
  mask : Option Pointer
  nullCount : Nat
  children : List ViewSpec

inductive BufferContent where
  | zeroed (length : Nat)
  | bytes (bytes : Bytes)

inductive MessageSource where
  | object (name : String)
  | bytes (bytes : Bytes)

inductive Edit where
  | overwrite (start : Nat) (bytes : Bytes)
  | insert (start : Nat) (bytes : Bytes)
  | remove (start count : Nat)
  | truncate (length : Nat)

namespace Edit

def apply (bytes : Bytes) : Edit → Bytes
  | .overwrite start patch => bytes.take start ++ patch ++ bytes.drop (start + patch.length)
  | .insert start added => bytes.take start ++ added ++ bytes.drop start
  | .remove start count => bytes.take start ++ bytes.drop (start + count)
  | .truncate length => bytes.take length

end Edit

/-- One request. `via` names the resource or engine to allocate from. -/
inductive Request where
  | resource (name below : String)
  | engine (name : String) (config : EngineConfig)
  | stats (subject : String)
  | outstanding (subject : String) (pointer : Pointer)
  | allocate (name : String) (size : Nat) (via : String)
  | deallocate (pointer : Pointer) (size : Nat) (via : String)
  | buffer (name : String) (content : BufferContent) (via : String)
  | readBuffer (subject : String)
  | drop (subject : String)
  | write (pointer : Pointer) (bytes : Bytes)
  | read (pointer : Pointer) (length : Nat)
  | query (pointer : Pointer)
  | handleOf (pointer : Pointer)
  | openHandle (name : String) (handle : Bytes)
  | describe (subject : String)
  | event (name : String)
  | widen (name : String) (decimal : NarrowDecimal) (pointer : Pointer) (count : Nat) (via : String)
  | pack (name : String) (pointer : Pointer) (count : Nat) (via : String)
  | values (name : String) (type : ColumnType) (host : HostType) (values : List Int)
      (validity : Option (List Bool)) (via : String)
  | booleans (name : String) (values : List Bool) (validity : Option (List Bool)) (via : String)
  | nulls (name : String) (rows : Nat)
  | strings (name : String) (values : List (Option String)) (via : String)
  | lists (name : String) (offsets : List Int) (element : String) (validity : Option (List Bool))
      (via : String)
  | structs (name : String) (rows : Nat) (fields : List String) (validity : Option (List Bool))
      (via : String)
  | dictionary (name indices keys : String) (validity : Option (List Bool)) (via : String)
  | assemble (name : String) (type : ColumnType) (rows : Nat) (data mask : Option String)
      (nullCount : Nat) (children : List String)
  | release (subject into : String)
  | contents (subject : String)
  | table (name : String) (columns : List String)
  | split (subject into : String)
  | view (name : String) (columns : List ViewSpec)
  | inspect (subject : String)
  | readValues (subject : String) (path : List Nat) (host : HostType)
  | readValidity (subject : String) (path : List Nat)
  | sameView (left right : String)
  | field (subject : String) (path : List Nat) (names : NameTree)
  | fields (subject : String) (names : List NameTree)
  | schema (subject : String) (names : List NameTree)
  | array (subject name via : String)
  | deviceArray (subject name via : String)
  | inspectArray (subject : String)
  | await (subject : String)
  | blankArray (name : String)
  | releaseArray (subject : String)
  | moveChild (subject : String) (child : Nat) (name : String)
  | share (subject : String) (names : List NameTree) (name : String) (strict : Bool)
  | shareThrough (subject : String) (names : List NameTree) (name engine : String)
  | openShared (name : String) (source : MessageSource) (edits : List Edit)
  | dropOwner (subject : String) (index : Nat)

end DeviceColumns
