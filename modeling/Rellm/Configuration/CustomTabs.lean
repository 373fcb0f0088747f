import Rellm.Foundation.Json
import Rellm.Protos.ServerConfiguration

/-!
# Stored navigation tabs

The JSON column `custom_tabs` and its backward-compatible reading: the current
shape as its serializer writes it, or the legacy shape, whose tabs nested their
target, icon and title under `custom_tab` and whose home page was a plain tab.
-/

namespace Rellm

open Foundation

/-- A document that is an object; derived struct readers reject scalars. -/
private def requireObject : Json → Option Unit
  | .obj _ => some ()
  | _ => none

/-- Serializes the target of the home page. -/
def HomeTarget.toValue : HomeTarget → Json
  | .tab builtin => .obj [("Tab", .num builtin.toInt)]
  | .postId post => .obj [("PostId", .str post)]

/-- Reads the target of the home page. -/
def HomeTarget.fromValue (json : Json) : Option HomeTarget := do
  match ← json.variant with
  | ("Tab", value) => return .tab (← value.asI32)
  | ("PostId", value) => return .postId (← value.asString)
  | _ => none

/-- Serializes the target of a tab. -/
def TabTarget.toValue : TabTarget → Json
  | .tab builtin => .obj [("Tab", .num builtin.toInt)]
  | .postId post => .obj [("PostId", .str post)]
  | .isProfile flag => .obj [("IsProfile", .bool flag)]

/-- Reads the target of a tab. -/
def TabTarget.fromValue (json : Json) : Option TabTarget := do
  match ← json.variant with
  | ("Tab", value) => return .tab (← value.asI32)
  | ("PostId", value) => return .postId (← value.asString)
  | ("IsProfile", value) => return .isProfile (← value.asBool)
  | _ => none

/-- Serializes the icon of a tab. -/
def TabIcon.toValue : TabIcon → Json
  | .emojiIcon emoji => .obj [("EmojiIcon", .str emoji)]
  | .iconMediaId mediaId => .obj [("IconMediaId", .str mediaId)]

/-- Reads the icon of a tab. -/
def TabIcon.fromValue (json : Json) : Option TabIcon := do
  match ← json.variant with
  | ("EmojiIcon", value) => return .emojiIcon (← value.asString)
  | ("IconMediaId", value) => return .iconMediaId (← value.asString)
  | _ => none

/-- Serializes the home page. -/
def CustomHomePage.toValue (home : CustomHomePage) : Json :=
  .obj [
    ("pinned_post_ids", .arr (home.pinnedPostIds.map .str)),
    ("show_events_strip", .bool home.showEventsStrip),
    ("default_events_strip_to_row", .bool home.defaultEventsStripToRow),
    ("default_events_strip_calendar_display_mode",
      .num home.defaultEventsStripCalendarDisplayMode.toInt),
    ("target", .ofOption HomeTarget.toValue home.target)]

/-- Reads the home page; only the target may be missing. -/
def CustomHomePage.fromValue (json : Json) : Option CustomHomePage := do
  requireObject json
  return {
    target := ← json.optionField "target" HomeTarget.fromValue
    pinnedPostIds := ← json.field "pinned_post_ids" (·.asList Json.asString)
    showEventsStrip := ← json.field "show_events_strip" Json.asBool
    defaultEventsStripToRow := ← json.field "default_events_strip_to_row" Json.asBool
    defaultEventsStripCalendarDisplayMode :=
      ← json.field "default_events_strip_calendar_display_mode" Json.asI32 }

/-- Serializes a tab. -/
def CustomNavigationTab.toValue (tab : CustomNavigationTab) : Json :=
  .obj [
    ("title", .ofOption .str tab.title),
    ("path", .str tab.path),
    ("target", .ofOption TabTarget.toValue tab.target),
    ("icon", .ofOption TabIcon.toValue tab.icon)]

/-- Reads a tab; only the path must be there. -/
def CustomNavigationTab.fromValue (json : Json) : Option CustomNavigationTab := do
  requireObject json
  return {
    target := ← json.optionField "target" TabTarget.fromValue
    icon := ← json.optionField "icon" TabIcon.fromValue
    title := ← json.optionField "title" Json.asString
    path := ← json.field "path" Json.asString }

/-- Serializes the whole tab set. -/
def CustomNavigationTabSet.toValue (set : CustomNavigationTabSet) : Json :=
  .obj [
    ("home", .ofOption CustomHomePage.toValue set.home),
    ("tabs", .arr (set.tabs.map CustomNavigationTab.toValue)),
    ("tab_style", .num set.tabStyle.toInt)]

/-- Reads the current shape; `tab_style` may be missing in older documents. -/
def CustomNavigationTabSet.fromValue (json : Json) : Option CustomNavigationTabSet := do
  requireObject json
  return {
    home := ← json.optionField "home" CustomHomePage.fromValue
    tabs := ← json.field "tabs" (·.asList CustomNavigationTab.fromValue)
    tabStyle := ← json.fieldOr "tab_style" 0 Json.asI32 }

namespace LegacyCustomTabs

/-- A tab of the legacy shape: no path of its own. -/
structure CustomNavigationTab where
  target : Option TabTarget := none
  icon : Option TabIcon := none
  title : Option String := none
  deriving DecidableEq, Repr

/-- A legacy tab together with its path. -/
structure CustomNavigationTabWithPath where
  customTab : Option CustomNavigationTab := none
  path : String := ""
  deriving DecidableEq, Repr

/-- The legacy tab set. -/
structure CustomNavigationTabSet where
  home : Option CustomNavigationTab := none
  tabs : List CustomNavigationTabWithPath := []
  deriving DecidableEq, Repr

/-- Reads a legacy tab; every field may be missing. -/
def CustomNavigationTab.fromValue (json : Json) : Option CustomNavigationTab := do
  requireObject json
  return {
    target := ← json.optionField "target" TabTarget.fromValue
    icon := ← json.optionField "icon" TabIcon.fromValue
    title := ← json.optionField "title" Json.asString }

/-- Reads a legacy tab with its path; both may be missing. -/
def CustomNavigationTabWithPath.fromValue (json : Json) :
    Option CustomNavigationTabWithPath := do
  requireObject json
  return {
    customTab := ← json.optionField "custom_tab" CustomNavigationTab.fromValue
    path := ← json.fieldOr "path" "" Json.asString }

/-- Reads the legacy set; a missing `home` is absent, `tabs` must be there. -/
def CustomNavigationTabSet.fromValue (json : Json) : Option CustomNavigationTabSet := do
  requireObject json
  return {
    home := ← json.optionField "home" CustomNavigationTab.fromValue
    tabs := ← json.field "tabs" (·.asList CustomNavigationTabWithPath.fromValue) }

/-- A legacy home page keeps its target; a profile or unset target is dropped. -/
def CustomNavigationTab.intoCurrentHome (tab : CustomNavigationTab) : Option CustomHomePage :=
  match tab.target with
  | some (.tab builtin) => some { target := some (.tab builtin) }
  | some (.postId postId) => some { target := some (.postId postId) }
  | some (.isProfile _) => none
  | none => none

/-- A legacy tab becomes a current one under its path. -/
def CustomNavigationTab.intoCurrentTab (tab : CustomNavigationTab) (path : String) :
    Rellm.CustomNavigationTab :=
  { target := tab.target, icon := tab.icon, title := tab.title, path := path }

/-- An entry without a tab is dropped. -/
def CustomNavigationTabWithPath.intoCurrent (entry : CustomNavigationTabWithPath) :
    Option Rellm.CustomNavigationTab :=
  entry.customTab.map fun tab => tab.intoCurrentTab entry.path

/-- Migrates a legacy set; it predates tab styles. -/
def CustomNavigationTabSet.intoCurrent (set : CustomNavigationTabSet) :
    Rellm.CustomNavigationTabSet :=
  { home := set.home.bind CustomNavigationTab.intoCurrentHome
    tabs := set.tabs.filterMap CustomNavigationTabWithPath.intoCurrent
    tabStyle := 0 }

end LegacyCustomTabs

/-- Whether some entry of `tabs` carries the legacy `custom_tab` key. -/
def looksLegacy (value : Json) : Bool :=
  match (value.get "tabs").bind Json.asArray with
  | some tabs => tabs.any fun tab => (tab.get "custom_tab").isSome
  | none => false

/-- Reads stored tabs: legacy-looking documents only as legacy, others as the
current shape first. -/
def deserializeCustomTabs (value : Json) : Option CustomNavigationTabSet :=
  if looksLegacy value then
    (LegacyCustomTabs.CustomNavigationTabSet.fromValue value).map (·.intoCurrent)
  else
    match CustomNavigationTabSet.fromValue value with
    | some current => some current
    | none => (LegacyCustomTabs.CustomNavigationTabSet.fromValue value).map (·.intoCurrent)

end Rellm
