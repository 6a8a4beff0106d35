import DcInventory.Library.Table

/-
  This file defines XML elements as a parser returns them,
  with the text before and after every child.

  Key definitions include:
    * `Xml.Element`
    * `Xml.Element.itertext`
    * `Xml.Element.findall`
    * `Xml.Element.count`
    * `Xml.Element.depth`
-/

namespace Xml

/-
  `text` stands before the first child, `tail` after the
  element itself.
-/
inductive Element where
| mk
    (tag : List Char)
    (attrib : List (List Char × List Char))
    (text tail : Option (List Char))
    (children : List Element)

namespace Element

def tag : Element → List Char
| mk tag _ _ _ _ => tag

def attrib : Element → List (List Char × List Char)
| mk _ attrib _ _ _ => attrib

def text : Element → Option (List Char)
| mk _ _ text _ _ => text

def tail : Element → Option (List Char)
| mk _ _ _ tail _ => tail

def children : Element → List Element
| mk _ _ _ _ children => children

/- `element.get(name)` -/
def get (e : Element) (name : List Char) : Option (List Char) :=
  (Table.find Prod.fst name e.attrib).map Prod.snd

/- The children with a tag. -/
def findall (e : Element) (tag : List Char) : List Element :=
  e.children.filter (fun child => child.tag = tag)

/- The first child with a tag. -/
def find (e : Element) (tag : List Char) : Option Element :=
  e.children.find? (fun child => child.tag = tag)

mutual

/- `"".join(element.itertext())` -/
def itertext : Element → List Char
| mk _ _ text _ children =>
    text.getD [] ++ itertextAll children

def itertextAll : List Element → List Char
| [] => []
| e :: es => itertext e ++ e.tail.getD [] ++ itertextAll es

end

mutual

/- The number of elements. -/
def count : Element → Nat
| mk _ _ _ _ children => countAll children + 1

def countAll : List Element → Nat
| [] => 0
| e :: es => count e + countAll es

end

mutual

/- How deep elements nest. -/
def depth : Element → Nat
| mk _ _ _ _ children => depthAll children + 1

def depthAll : List Element → Nat
| [] => 0
| e :: es => max (depth e) (depthAll es)

end

end Element

end Xml
