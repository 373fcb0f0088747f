import Rellm.Configuration.CustomTabs

/-!
# Tabs after an upgrade

The tabs of a server are stored in the shape of the server that stored them. A server reads its own
shape back as it was, and migrates the legacy one: no legacy document passes for one of its own in
which targets, icons and titles are missing.
-/

namespace Rellm

open Foundation

theorem HomeTarget.fromValue_toValue (target : HomeTarget) :
    HomeTarget.fromValue target.toValue = some target := by
  cases target with
  | tab builtin => simp [toValue, fromValue, Json.variant]
  | postId postId => rfl

theorem TabTarget.fromValue_toValue (target : TabTarget) :
    TabTarget.fromValue target.toValue = some target := by
  cases target with
  | tab builtin => simp [toValue, fromValue, Json.variant]
  | postId postId => rfl
  | isProfile flag => rfl

theorem TabIcon.fromValue_toValue (icon : TabIcon) : TabIcon.fromValue icon.toValue = some icon := by
  cases icon <;> rfl

theorem HomeTarget.toValue_ne_null (target : HomeTarget) : target.toValue ≠ .null := by
  cases target <;> exact fun h => by cases h

theorem TabTarget.toValue_ne_null (target : TabTarget) : target.toValue ≠ .null := by
  cases target <;> exact fun h => by cases h

theorem TabIcon.toValue_ne_null (icon : TabIcon) : icon.toValue ≠ .null := by
  cases icon <;> exact fun h => by cases h

theorem CustomHomePage.fromValue_toValue (home : CustomHomePage) :
    CustomHomePage.fromValue home.toValue = some home := by
  have htarget : home.toValue.optionField "target" HomeTarget.fromValue = some home.target :=
    Json.optionField_of_get HomeTarget.fromValue_toValue HomeTarget.toValue_ne_null rfl
  have hpinned : home.toValue.field "pinned_post_ids" (·.asList Json.asString) =
      some home.pinnedPostIds :=
    Json.asList_map Json.asString_str home.pinnedPostIds
  have hmode : home.toValue.field "default_events_strip_calendar_display_mode" Json.asI32 =
      some home.defaultEventsStripCalendarDisplayMode :=
    Json.asI32_num home.defaultEventsStripCalendarDisplayMode
  unfold fromValue
  rw [htarget, hpinned, hmode]
  rfl

theorem CustomNavigationTab.fromValue_toValue (tab : CustomNavigationTab) :
    CustomNavigationTab.fromValue tab.toValue = some tab := by
  have htarget : tab.toValue.optionField "target" TabTarget.fromValue = some tab.target :=
    Json.optionField_of_get TabTarget.fromValue_toValue TabTarget.toValue_ne_null rfl
  have hicon : tab.toValue.optionField "icon" TabIcon.fromValue = some tab.icon :=
    Json.optionField_of_get TabIcon.fromValue_toValue TabIcon.toValue_ne_null rfl
  have htitle : tab.toValue.optionField "title" Json.asString = some tab.title :=
    Json.optionField_of_get Json.asString_str (fun _ h => by cases h) rfl
  unfold fromValue
  rw [htarget, hicon, htitle]
  rfl

theorem CustomNavigationTabSet.fromValue_toValue (set : CustomNavigationTabSet) :
    CustomNavigationTabSet.fromValue set.toValue = some set := by
  have hhome : set.toValue.optionField "home" CustomHomePage.fromValue = some set.home :=
    Json.optionField_of_get CustomHomePage.fromValue_toValue (fun _ h => by cases h) rfl
  have htabs : set.toValue.field "tabs" (·.asList CustomNavigationTab.fromValue) = some set.tabs :=
    Json.asList_map CustomNavigationTab.fromValue_toValue set.tabs
  have hstyle : set.toValue.fieldOr "tab_style" 0 Json.asI32 = some set.tabStyle :=
    Json.asI32_num set.tabStyle
  unfold fromValue
  rw [hhome, htabs, hstyle]
  rfl

/-- No tab of the current shape has a `custom_tab`. -/
theorem looksLegacy_toValue (set : CustomNavigationTabSet) : looksLegacy set.toValue = false := by
  show (set.tabs.map CustomNavigationTab.toValue).any (fun tab => (tab.get "custom_tab").isSome) =
    false
  rw [List.any_map, List.any_eq_false]
  intro tab _ h
  exact Bool.false_ne_true h

namespace LegacyCustomTabs

/-- A legacy tab as it was stored, with all its fields. -/
def CustomNavigationTab.toValue (tab : CustomNavigationTab) : Json :=
  .obj [
    ("title", .ofOption .str tab.title),
    ("target", .ofOption TabTarget.toValue tab.target),
    ("icon", .ofOption TabIcon.toValue tab.icon)]

/-- A legacy tab with its path as it was stored. -/
def CustomNavigationTabWithPath.toValue (entry : CustomNavigationTabWithPath) : Json :=
  .obj [
    ("custom_tab", .ofOption CustomNavigationTab.toValue entry.customTab),
    ("path", .str entry.path)]

/-- A legacy set as it was stored. -/
def CustomNavigationTabSet.toValue (set : CustomNavigationTabSet) : Json :=
  .obj [
    ("home", .ofOption CustomNavigationTab.toValue set.home),
    ("tabs", .arr (set.tabs.map CustomNavigationTabWithPath.toValue))]

theorem CustomNavigationTab.fromValue_toValue (tab : CustomNavigationTab) :
    CustomNavigationTab.fromValue tab.toValue = some tab := by
  have htarget : tab.toValue.optionField "target" TabTarget.fromValue = some tab.target :=
    Json.optionField_of_get TabTarget.fromValue_toValue TabTarget.toValue_ne_null rfl
  have hicon : tab.toValue.optionField "icon" TabIcon.fromValue = some tab.icon :=
    Json.optionField_of_get TabIcon.fromValue_toValue TabIcon.toValue_ne_null rfl
  have htitle : tab.toValue.optionField "title" Json.asString = some tab.title :=
    Json.optionField_of_get Json.asString_str (fun _ h => by cases h) rfl
  unfold fromValue
  rw [htarget, hicon, htitle]
  rfl

theorem CustomNavigationTabWithPath.fromValue_toValue (entry : CustomNavigationTabWithPath) :
    CustomNavigationTabWithPath.fromValue entry.toValue = some entry := by
  have htab : entry.toValue.optionField "custom_tab" CustomNavigationTab.fromValue =
      some entry.customTab :=
    Json.optionField_of_get CustomNavigationTab.fromValue_toValue (fun _ h => by cases h) rfl
  unfold fromValue
  rw [htab]
  rfl

theorem CustomNavigationTabSet.fromValue_toValue (set : CustomNavigationTabSet) :
    CustomNavigationTabSet.fromValue set.toValue = some set := by
  have hhome : set.toValue.optionField "home" CustomNavigationTab.fromValue = some set.home :=
    Json.optionField_of_get CustomNavigationTab.fromValue_toValue (fun _ h => by cases h) rfl
  have htabs : set.toValue.field "tabs" (·.asList CustomNavigationTabWithPath.fromValue) =
      some set.tabs :=
    Json.asList_map CustomNavigationTabWithPath.fromValue_toValue set.tabs
  unfold fromValue
  rw [hhome, htabs]
  rfl

/-- A legacy set shows by any of its tabs that it is one. -/
theorem looksLegacy_toValue (set : CustomNavigationTabSet) :
    looksLegacy set.toValue = !set.tabs.isEmpty := by
  show (set.tabs.map CustomNavigationTabWithPath.toValue).any
    (fun tab => (tab.get "custom_tab").isSome) = !set.tabs.isEmpty
  cases set.tabs with
  | nil => rfl
  | cons entry tabs => rfl

/-- A legacy home page is not one of the current shape: it has no pinned posts. -/
theorem homeFromValue_toValue (tab : CustomNavigationTab) :
    CustomHomePage.fromValue tab.toValue = none := by
  have hpinned : tab.toValue.field "pinned_post_ids" (·.asList Json.asString) = none := rfl
  unfold CustomHomePage.fromValue
  rw [hpinned]
  cases tab.toValue.optionField "target" HomeTarget.fromValue <;> rfl

/-- A home page can be migrated that links to one of the tabs, or to a post. -/
def CustomNavigationTab.homeTarget (tab : CustomNavigationTab) : Option HomeTarget :=
  match tab.target with
  | some (.tab builtin) => some (.tab builtin)
  | some (.postId postId) => some (.postId postId)
  | some (.isProfile _) | none => none

/-- The current set that a legacy set becomes: its tabs in order, and its home page if that can be
migrated. -/
structure MigratesTo (set : CustomNavigationTabSet) (current : Rellm.CustomNavigationTabSet) :
    Prop where
  tabs : current.tabs = set.tabs.filterMap fun entry => entry.customTab.map fun tab =>
    { target := tab.target, icon := tab.icon, title := tab.title, path := entry.path }
  home : current.home = (set.home.bind CustomNavigationTab.homeTarget).map fun target =>
    { target := some target }
  tabStyle : current.tabStyle = 0

theorem migratesTo_intoCurrent (set : CustomNavigationTabSet) : MigratesTo set set.intoCurrent := by
  refine ⟨rfl, ?_, rfl⟩
  rw [CustomNavigationTabSet.intoCurrent]
  cases set.home with
  | none => rfl
  | some tab =>
    rw [Option.bind_some, Option.bind_some, CustomNavigationTab.intoCurrentHome,
      CustomNavigationTab.homeTarget]
    rcases tab.target with _ | builtin | postId | flag <;> rfl

/-- A legacy set with a home page does not pass for a current one. -/
theorem currentFromValue_of_home (tab : CustomNavigationTab)
    (tabs : List CustomNavigationTabWithPath) :
    Rellm.CustomNavigationTabSet.fromValue (CustomNavigationTabSet.toValue ⟨some tab, tabs⟩) = none := by
  have hhome : (CustomNavigationTabSet.toValue ⟨some tab, tabs⟩).optionField "home" CustomHomePage.fromValue = none := by
    show Json.asOption CustomHomePage.fromValue tab.toValue = none
    rw [CustomNavigationTab.toValue, Json.asOption, ← CustomNavigationTab.toValue,
      homeFromValue_toValue]
    · rfl
    · exact fun h => by cases h
  unfold Rellm.CustomNavigationTabSet.fromValue
  rw [hhome]
  rfl

/-- A legacy set is migrated, whether or not its tabs show that it is one. -/
theorem deserialize_toValue (set : CustomNavigationTabSet) :
    deserializeCustomTabs set.toValue = some set.intoCurrent := by
  rw [deserializeCustomTabs, looksLegacy_toValue, CustomNavigationTabSet.fromValue_toValue]
  cases htabs : set.tabs with
  | cons entry tabs => rfl
  | nil =>
    obtain ⟨home, tabs⟩ := set
    obtain rfl : tabs = [] := htabs
    cases home with
    | none => rfl
    | some tab =>
      rw [currentFromValue_of_home]
      rfl

end LegacyCustomTabs

/-- Tabs are read back as they were stored, and legacy tabs as what they become. -/
theorem deserializeCustomTabs_toValue :
    (∀ set : CustomNavigationTabSet, deserializeCustomTabs set.toValue = some set) ∧
    ∀ set : LegacyCustomTabs.CustomNavigationTabSet,
      ∃ current, deserializeCustomTabs set.toValue = some current ∧
        LegacyCustomTabs.MigratesTo set current := by
  constructor
  · intro set
    rw [deserializeCustomTabs, looksLegacy_toValue, if_neg Bool.false_ne_true,
      CustomNavigationTabSet.fromValue_toValue]
  · intro set
    exact ⟨set.intoCurrent, LegacyCustomTabs.deserialize_toValue set,
      LegacyCustomTabs.migratesTo_intoCurrent set⟩

end Rellm
