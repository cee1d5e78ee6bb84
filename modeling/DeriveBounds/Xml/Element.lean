/-!
Elements of an XML document: a tag, attributes, the text before the first child, and children.
-/
namespace DeriveBounds.Xml

structure Element where
  tag : String
  attributes : List (String × String)
  text : Option String
  children : List Element
  deriving Inhabited

namespace Element

def attribute? (element : Element) (name : String) : Option String :=
  element.attributes.lookup name

/-- The value of an attribute; one that is missing reads as empty. -/
def attributeD (element : Element) (name : String) : String :=
  (element.attribute? name).getD ""

def childrenTagged (element : Element) (tag : String) : List Element :=
  element.children.filter (·.tag = tag)

def childTagged? (element : Element) (tag : String) : Option Element :=
  element.children.find? (·.tag = tag)

/-- The text of the first child with the tag; a child without text has the empty one. -/
def childText? (element : Element) (tag : String) : Option String :=
  (element.childTagged? tag).map fun child => child.text.getD ""

end Element

end DeriveBounds.Xml
