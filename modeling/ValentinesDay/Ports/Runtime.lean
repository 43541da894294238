import Mathlib.Data.List.Basic

/-!
# What the Swift runtime and the app bundle contribute

A screen of the app is modelled as a fallible step on its own state: a trap, a
failed assertion or an uncaught Objective-C exception ends the process.
`Crash` names the ways the code can end it, with the texts of the source.

The app bundle is what the `PBXResourcesBuildPhase` of the `ValentinesDay`
target copies: a route can be loaded exactly when its `.geojson` file is in
that list.
-/

namespace ValentinesDay.Ports.Runtime

/-- How a process of the app can end other than by being closed. -/
inductive Crash where
  | forcedCast (field : String)
  | indexOutOfRange (index : Nat)
  | unexpectedNil (expression : String)
  | preconditionFailure (message : String)
  | fatalError (message : String)
  | hardAssert (message : String)
  | redundantSourceIdentifier (identifier : String)
  | redundantLayerIdentifier (identifier : String)
  deriving DecidableEq, Repr

/-- The exceptions the map style raises for an identifier it already has. -/
def Crash.Redundant : Crash → Prop
  | .redundantSourceIdentifier _ => True
  | .redundantLayerIdentifier _ => True
  | _ => False

instance : DecidablePred Crash.Redundant := fun c => by
  cases c <;> unfold Crash.Redundant <;> infer_instance

/-- The content of a `SwiftMessages` view; `none` where the view keeps what its
theme shows. -/
structure MessageContent where
  title : String
  body : String
  iconText : Option String
  buttonTitle : Option String
  deriving DecidableEq, Repr

/-! ## The app bundle -/

/-- Files of the Resources phase of the app target, in project order. -/
def resourcesBuildPhase : List String :=
  [ "Clue7.geojson"
  , "LaunchScreen.storyboard"
  , "Clue2.geojson"
  , "GoogleService-Info.plist"
  , "Clue1.geojson"
  , "Assets.xcassets"
  , "Clue9.geojson"
  , "Clue3.geojson"
  , "Clue4.geojson"
  , "Main.storyboard"
  , "Clue8.geojson"
  , "Clue5.geojson"
  , "Clue6.geojson" ]

/-- `Bundle.main.url(forResource:withExtension:)`: nil exactly for files the
Resources phase does not copy.  A URL is represented by the file's name. -/
def bundleURL (forResource withExtension : String) : Option String :=
  let file := forResource ++ "." ++ withExtension
  if file ∈ resourcesBuildPhase then some file else none

/-- A route the app can load: `N.geojson` is copied into the bundle. -/
def Bundled (name : String) : Prop :=
  name ++ "." ++ "geojson" ∈ resourcesBuildPhase

instance (name : String) : Decidable (Bundled name) := by
  unfold Bundled
  infer_instance

theorem bundleURL_of_bundled {name : String} (h : Bundled name) :
    bundleURL name "geojson" = some (name ++ "." ++ "geojson") :=
  if_pos h

theorem bundleURL_of_not_bundled {name : String} (h : ¬Bundled name) :
    bundleURL name "geojson" = none :=
  if_neg h

theorem not_bundled_clue10 : ¬Bundled "Clue10" := by decide

/-- The files of the installed bundle.  Every file the Resources phase copied
can be read; whether its text is a shape Mapbox accepts is left open. -/
structure InstalledBundle where
  /-- `Data(contentsOf:)`, none where it throws. -/
  contents : String → Option String
  /-- `MGLShape(data:encoding:)` accepts the text. -/
  parses : String → Bool
  readable : ∀ file ∈ resourcesBuildPhase, (contents file).isSome

/-- Every route file of the bundle holds a shape. -/
def InstalledBundle.RoutesParse (b : InstalledBundle) : Prop :=
  ∀ name, Bundled name →
    ∀ data, b.contents (name ++ "." ++ "geojson") = some data →
      b.parses data = true

/-- A bundle whose files all read as an empty feature collection. -/
def sampleBundle : InstalledBundle where
  contents file := if file ∈ resourcesBuildPhase then some "FeatureCollection" else none
  parses data := data == "FeatureCollection"
  readable file h := by simp [h]

theorem sampleBundle_routesParse : sampleBundle.RoutesParse := by
  intro name hname data hdata
  unfold Bundled at hname
  simp only [sampleBundle, hname, if_true, Option.some.injEq] at hdata
  subst data
  rfl

end ValentinesDay.Ports.Runtime
