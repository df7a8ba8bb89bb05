import CliMetadata.Bytes.LittleEndian
import CliMetadata.Error
import CliMetadata.Handle.TypeHandle

/-!
# Descriptions

What is known about a thing as a tree of labelled values, from which a tool prints in whatever
notation it likes. Something that could not be found out is described by why not.
-/

namespace CliMetadata

/-- A tree of labelled values. -/
inductive Description where
  | nothing
  | flag (value : Bool)
  | number (value : Int)
  | text (value : String)
  | list (items : List Description)
  | fields (entries : List (String × Description))
  /-- A module, by its number. -/
  | module (owner : ModuleId)
  | failure (error : Error)

namespace Description

instance : Inhabited Description := ⟨nothing⟩

instance : Coe Bool Description := ⟨flag⟩
instance : Coe Nat Description := ⟨fun n => number n⟩
instance : Coe UInt8 Description := ⟨fun n => number n.toNat⟩
instance : Coe UInt16 Description := ⟨fun n => number n.toNat⟩
instance : Coe UInt32 Description := ⟨fun n => number n.toNat⟩
instance : Coe String Description := ⟨text⟩
instance : Coe Token Description := ⟨fun token => text token.display⟩
instance : Coe (List Description) Description := ⟨list⟩
instance [Coe α Description] [Coe β Description] : Coe (α × β) Description :=
  ⟨fun (first, second) => list [Coe.coe first, Coe.coe second]⟩
instance [Coe α Description] : Coe (List α) Description := ⟨fun items => list (items.map Coe.coe)⟩
instance [Coe α Description] : Coe (Option α) Description := ⟨fun item? =>
  (item?.map Coe.coe).getD nothing⟩

/-- Bytes, by their hexadecimal digits. -/
def bytes (data : Bytes) : Description := text (Hex.ofBytes data)

/-- Several things. -/
def each (describe : α → Description) (items : List α) : Description := list (items.map describe)

/-- Several texts. -/
def texts (items : List String) : Description := each text items

/-- A thing that may be missing. -/
def optional (describe : α → Description) : Option α → Description
  | some item => describe item
  | none => nothing

/-- A result, or why there is none. -/
def result (describe : α → Description) : Except Error α → Description
  | .ok item => describe item
  | .error error => failure error

/-- The labels of those flags that are set. -/
def setFlags (flags : List (String × Bool)) : Description :=
  texts ((flags.filter (·.2)).map (·.1))

end Description

end CliMetadata
