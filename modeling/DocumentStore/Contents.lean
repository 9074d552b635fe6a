import DocumentStore.Collection

/-!
What a store holds: a collection for each class, and for each class a mask of fields that no
response shows.
-/

namespace DocumentStore

abbrev Mask := KeyMap Unit

def Mask.addAll (mask : Mask) (fields : List String) : Mask :=
  fields.foldl (fun m f => KeyMap.insert m f ()) mask

structure Contents where
  classes : KeyMap Collection := []
  masks : KeyMap Mask := []

namespace Contents

def collection? (c : Contents) (className : String) : Option Collection :=
  KeyMap.get? c.classes className

def collection (c : Contents) (className : String) : Collection :=
  (c.collection? className).getD .empty

def setCollection (c : Contents) (className : String) (records : Collection) : Contents :=
  { c with classes := KeyMap.insert c.classes className records }

def touch (c : Contents) (className : String) : Contents :=
  c.setCollection className (c.collection className)

def insert (c : Contents) (className objectId : String) (record : Record) : Contents :=
  c.setCollection className ((c.collection className).insert objectId record)

def erase (c : Contents) (className objectId : String) : Contents :=
  c.setCollection className ((c.collection className).erase objectId)

def fetch (c : Contents) (className objectId : String) : Option Record :=
  (c.collection className).get? objectId

def records (c : Contents) (className : String) : List Record := (c.collection className).records

def mask? (c : Contents) (className : String) : Option Mask := KeyMap.get? c.masks className

def mask (c : Contents) (className : String) : Mask := (c.mask? className).getD []

def setMask (c : Contents) (className : String) (mask : Mask) : Contents :=
  { c with masks := KeyMap.insert c.masks className mask }

def touchMask (c : Contents) (className : String) : Contents :=
  c.setMask className (c.mask className)

/-- Hides fields in all later responses of a class. No field makes no mask. -/
def hide (c : Contents) (className : String) (fields : List String) : Contents :=
  if fields.isEmpty then c else c.setMask className ((c.mask className).addAll fields)

/-- A record of a class as responses show it. -/
def visible (c : Contents) (className : String) (record : Record) : Record :=
  KeyMap.without record (KeyMap.keys (c.mask className))

def isEmpty (c : Contents) : Bool := c.classes.all (·.2.isEmpty) && c.masks.isEmpty

end Contents

end DocumentStore
