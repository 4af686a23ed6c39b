import ComponentSurvey.Text.Words

/-!
# The component library

Which components are tracked, which of them have a counterpart bound to the second generation of
data sources, and what field an editor contributes to a form.
-/

namespace ComponentSurvey.Library

def libraryModule : String := "@archbase/react"

def isLibraryModule (source : String) : Bool :=
  Text.mentions source.toList "archbase"

def trackedComponents : List String :=
  ["ArchbaseEdit", "ArchbaseSelect", "ArchbaseDataTable", "ArchbaseFormTemplate",
    "ArchbaseDataGrid", "ArchbaseRemoteDataSource", "ArchbaseLocalDataSource",
    "ArchbaseCheckbox", "ArchbaseRadio", "ArchbaseSwitch", "ArchbaseSlider", "ArchbaseTextArea",
    "ArchbasePasswordInput", "ArchbaseNumberInput", "ArchbaseDatePicker", "ArchbaseTimePicker",
    "ArchbaseColorPicker", "ArchbaseFileUpload", "ArchbaseImageUpload", "ArchbaseRichTextEditor",
    "ArchbaseCodeEditor", "ArchbaseMarkdownEditor", "ArchbaseTagInput", "ArchbaseAutocomplete",
    "ArchbaseMultiSelect", "ArchbaseTreeSelect", "ArchbaseAsyncSelect", "ArchbaseButton",
    "ArchbaseIconButton", "ArchbaseModal", "ArchbaseDrawer", "ArchbasePopover",
    "ArchbaseTooltip", "ArchbaseNotification", "ArchbaseAlert", "ArchbaseLoading",
    "ArchbaseSkeleton"]

def isTracked (name : String) : Bool := trackedComponents.contains name

def migratableComponents : List String :=
  ["ArchbaseEdit", "ArchbaseSelect", "ArchbaseTextArea", "ArchbaseCheckbox", "ArchbaseRadio",
    "ArchbaseSwitch", "ArchbaseNumberInput", "ArchbasePasswordInput", "ArchbaseDatePicker",
    "ArchbaseMultiSelect", "ArchbaseAutocomplete", "ArchbaseDataGrid", "ArchbaseDataTable",
    "ArchbaseFormTemplate"]

def isMigratable (name : String) : Bool := migratableComponents.contains name

def fieldTypes : List (String × String) := [
  ("ArchbaseEdit", "text"),
  ("ArchbasePasswordInput", "password"),
  ("ArchbaseTextArea", "textarea"),
  ("ArchbaseRichTextEditor", "textarea"),
  ("ArchbaseMarkdownEditor", "textarea"),
  ("ArchbaseNumberInput", "number"),
  ("ArchbaseSlider", "number"),
  ("ArchbaseSelect", "select"),
  ("ArchbaseAsyncSelect", "select"),
  ("ArchbaseTreeSelect", "select"),
  ("ArchbaseMultiSelect", "multiselect"),
  ("ArchbaseTagInput", "multiselect"),
  ("ArchbaseAutocomplete", "autocomplete"),
  ("ArchbaseCheckbox", "checkbox"),
  ("ArchbaseSwitch", "checkbox"),
  ("ArchbaseRadio", "radio"),
  ("ArchbaseDatePicker", "date"),
  ("ArchbaseTimePicker", "time"),
  ("ArchbaseColorPicker", "color"),
  ("ArchbaseFileUpload", "file"),
  ("ArchbaseImageUpload", "file")]

def fieldType? (component : String) : Option String :=
  (fieldTypes.find? fun entry => entry.1 = component).map Prod.snd

def recommendedPackages : List String :=
  ["@mantine/core", "@mantine/hooks", "@emotion/react", "react-query"]

def firstGenerationFactories : List String := ["ArchbaseDataSource", "useArchbaseDataSource"]

def secondGenerationFactories : List String :=
  ["ArchbaseRemoteDataSource", "useArchbaseRemoteDataSource", "ArchbaseDataSourceV2",
    "useArchbaseDataSourceV2"]

def secondGenerationMethods : List String :=
  ["appendToFieldArray", "updateFieldArrayItem", "removeFromFieldArray"]

def dataSourceProps : List String := ["dataSource", "dataField"]

def sideEffectHooks : List String := ["useEffect", "useLayoutEffect", "useInsertionEffect"]

structure PropRules where
  component : String
  required : List String
  /-- Props that should go, with the reason. -/
  deprecated : List (String × String)
  replaced : List (String × String)
deriving DecidableEq, Repr

def forceUpdateRule : String × String :=
  ("forceUpdate", "forceUpdate is not needed with reactive DataSources")

def propRules : List PropRules := [
  ⟨"ArchbaseEdit", ["dataSource", "dataField"], [forceUpdateRule], []⟩,
  ⟨"ArchbaseSelect", ["dataSource", "dataField"], [forceUpdateRule], []⟩,
  ⟨"ArchbaseTextArea", ["dataSource", "dataField"], [forceUpdateRule], []⟩,
  ⟨"ArchbaseCheckbox", ["dataSource", "dataField"], [forceUpdateRule], []⟩,
  ⟨"ArchbaseDataGrid", ["dataSource"], [forceUpdateRule],
    [("onRowClick", "onRowSelect"), ("onCellClick", "onCellSelect")]⟩,
  ⟨"ArchbaseFormTemplate", ["dataSource"], [forceUpdateRule],
    [("validation", "validationRules"), ("onValidationError", "onValidationFailed")]⟩,
  ⟨"ArchbaseRemoteDataSource", ["url"], [], []⟩,
  ⟨"ArchbaseModal", ["opened"], [], []⟩]

def rulesFor? (component : String) : Option PropRules :=
  propRules.find? fun rules => rules.component = component

def isRequiredProp (component prop : String) : Bool :=
  (rulesFor? component).any fun rules => rules.required.contains prop

/-- Components whose joint presence marks a pattern. -/
structure ProjectPattern where
  name : String
  components : List String
  description : String
deriving DecidableEq, Repr

def projectPatterns : List ProjectPattern := [
  ⟨"form-with-datasource", ["ArchbaseFormTemplate", "ArchbaseRemoteDataSource"],
    "Form with DataSource integration"⟩,
  ⟨"crud-with-datagrid", ["ArchbaseDataGrid", "ArchbaseRemoteDataSource"],
    "CRUD interface with DataGrid"⟩,
  ⟨"async-loading", ["ArchbaseLoading", "ArchbaseAsyncSelect"],
    "Async operations with loading states"⟩,
  ⟨"validation-with-feedback", ["ArchbaseFormTemplate", "ArchbaseAlert"],
    "Form validation with user feedback"⟩]

end ComponentSurvey.Library
