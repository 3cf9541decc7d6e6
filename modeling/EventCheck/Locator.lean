import EventCheck.Text.Case

/-! # Locators

    A locator tells where on a screen an element is found: by its text, or by a
    part of its label. A `PageElement` has a locator for each platform.
-/

namespace EventCheck

/-- How an expression is to be read, and the expression. -/
structure Locator where
  strategy : String
  expression : String
  deriving DecidableEq, Repr

/-- Why there is no locator. -/
inductive LocatorError where
  | nothingGiven (what : String)
  | unspecified (platform : String)
  | unknownPlatform (platform : String)
  deriving DecidableEq, Repr

def LocatorError.message : LocatorError → String
  | .nothingGiven what => "Locator by " ++ what ++ " is not specified and is null."
  | .unspecified platform => "Locator for " ++ platform ++ " is not specified"
  | .unknownPlatform platform => "Unknown platform: " ++ platform

namespace Locator

/-- The element with a text. -/
def byText (text : String) : Locator := ⟨"xpath", ".//*[@text = '" ++ text ++ "']"⟩

/-- The element with a text in its label. -/
def byLabel (label : String) : Locator := ⟨"xpath", ".//*[contains(@label,'" ++ label ++ "')]"⟩

def byText? (text : Option String) : Except LocatorError Locator :=
  match text with
  | none => .error (.nothingGiven "text")
  | some text => .ok (byText text)

def byLabel? (label : Option String) : Except LocatorError Locator :=
  match label with
  | none => .error (.nothingGiven "label")
  | some label => .ok (byLabel label)

end Locator

/-- An element with its locators on the two platforms. -/
structure PageElement where
  android : Option Locator
  ios : Option Locator
  deriving DecidableEq, Repr

namespace PageElement

/-- The element that shows a name. -/
def named (name : String) : PageElement := ⟨some (.byText name), some (.byLabel name)⟩

/-- The locator for a platform, whose name may be written in letters of either case. No name is an
    empty one. -/
def locator (e : PageElement) (platform : Option String) : Except LocatorError Locator :=
  let platform := Case.lower (platform.getD "")
  let given :=
    if platform == "android" then some e.android
    else if platform == "ios" then some e.ios
    else none
  match given with
  | none => .error (.unknownPlatform platform)
  | some none => .error (.unspecified platform)
  | some (some locator) => .ok locator

end PageElement

end EventCheck
