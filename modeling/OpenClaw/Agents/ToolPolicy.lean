import OpenClaw.Foundation.InsertionMap
import OpenClaw.Foundation.LowerCase

/-! Tool policies: groups, globs, and the pipeline of steps.

Policy entries and tool names go through `normalizeToolName`, which looks aliases up in a
plain object: for the two names that every object has it gives what the object inherits,
which is no string (`ToolName.inherited`). Whoever then asks it for a method of strings
throws, which is a `none` here. The warnings about unknown entries are left out. -/
namespace OpenClaw.Agents
open Foundation EcmaString

/-! ### Names -/

inductive ToolName where
  | text (s : String)
  | inherited (key : String)
  deriving Repr, DecidableEq

/-- `Boolean(name)`. -/
def ToolName.truthy : ToolName → Bool
  | .text s => s ≠ ""
  | .inherited _ => true

/-- `String(name)`. -/
def ToolName.coerced : ToolName → String
  | .text s => s
  | .inherited "constructor" => "function Object() \x7b [native code] \x7d"
  | .inherited _ => "[object Object]"

/-- `TOOL_NAME_ALIASES[normalized]`. -/
def TOOL_NAME_ALIASES (normalized : String) : Option ToolName :=
  match normalized with
  | "bash" => some (.text "exec")
  | "apply-patch" => some (.text "apply_patch")
  | "constructor" | "__proto__" => some (.inherited normalized)
  | _ => none

section Names
variable (cases : CaseTables)

def normalizeToolName (name : String) : ToolName :=
  (TOOL_NAME_ALIASES (cases.toLowerCase (trim name))).getD (.text (cases.toLowerCase (trim name)))

/-- `normalizeToolName` of a name: what is inherited has no `trim`. -/
def ToolName.normalize : ToolName → Option ToolName
  | .text s => some (normalizeToolName cases s)
  | .inherited _ => none

def normalizeToolList (list : List ToolName) : Option (List ToolName) :=
  (list.mapM (ToolName.normalize cases)).map fun names => names.filter ToolName.truthy

/-! ### Core groups -/

structure CoreToolDefinition where
  id : String
  sectionId : String
  includeInOpenClawGroup : Bool
  deriving Repr, DecidableEq

def CORE_TOOL_DEFINITIONS : List CoreToolDefinition := [
  ⟨"read", "fs", false⟩, ⟨"write", "fs", false⟩, ⟨"edit", "fs", false⟩, ⟨"apply_patch", "fs", false⟩,
  ⟨"exec", "runtime", false⟩, ⟨"process", "runtime", false⟩, ⟨"code_execution", "runtime", true⟩,
  ⟨"web_search", "web", true⟩, ⟨"web_fetch", "web", true⟩, ⟨"x_search", "web", true⟩,
  ⟨"memory_search", "memory", true⟩, ⟨"memory_get", "memory", true⟩,
  ⟨"sessions_list", "sessions", true⟩, ⟨"sessions_history", "sessions", true⟩,
  ⟨"sessions_send", "sessions", true⟩, ⟨"sessions_spawn", "sessions", true⟩,
  ⟨"sessions_yield", "sessions", true⟩, ⟨"subagents", "sessions", true⟩, ⟨"session_status", "sessions", true⟩,
  ⟨"browser", "ui", true⟩, ⟨"canvas", "ui", true⟩, ⟨"message", "messaging", true⟩,
  ⟨"cron", "automation", true⟩, ⟨"gateway", "automation", true⟩, ⟨"nodes", "nodes", true⟩,
  ⟨"agents_list", "agents", true⟩, ⟨"update_plan", "agents", true⟩, ⟨"image", "media", true⟩,
  ⟨"image_generate", "media", true⟩, ⟨"music_generate", "media", true⟩, ⟨"video_generate", "media", true⟩,
  ⟨"tts", "media", true⟩]

def groupTools (name : String) : List CoreToolDefinition :=
  if name = "group:openclaw" then CORE_TOOL_DEFINITIONS.filter CoreToolDefinition.includeInOpenClawGroup
  else CORE_TOOL_DEFINITIONS.filter fun tool => "group:" ++ tool.sectionId = name

/-- The tools of a group, `undefined` where there is none. -/
def TOOL_GROUPS (name : String) : Option (List String) :=
  if groupTools name = [] then none else some ((groupTools name).map CoreToolDefinition.id)

def expandName (name : ToolName) : List ToolName :=
  match name with
  | .text s => ((TOOL_GROUPS s).map fun tools => tools.map ToolName.text).getD [name]
  | .inherited _ => [name]

def expandToolGroups (list : List ToolName) : Option (List ToolName) :=
  (normalizeToolList cases list).map fun normalized => (normalized.flatMap expandName).eraseDups

/-! ### Globs -/

/-- `.` of a regular expression takes no line terminator. -/
def isLineTerminator (c : Char) : Bool := c.toNat ∈ [0x0A, 0x0D, 0x2028, 0x2029]

/-- Any run, then what `rest` takes. -/
def takesAfterStar (rest : List Char → Bool) : List Char → Bool
  | [] => rest []
  | c :: s => rest (c :: s) || (!isLineTerminator c && takesAfterStar rest s)

/-- The regular expression of a glob, on a whole text. -/
def globMatches : List Char → List Char → Bool
  | [], s => s.isEmpty
  | c :: pattern, s =>
    if c = '*' then takesAfterStar (globMatches pattern) s
    else
      match s with
      | [] => false
      | d :: s => c = d && globMatches pattern s

inductive CompiledGlobPattern where
  | all
  | exact (value : String)
  | regex (glob : String)
  deriving Repr, DecidableEq

/-- A name that is not a string has no `includes`. -/
def compileGlobPattern (raw : ToolName) : Option CompiledGlobPattern :=
  (raw.normalize cases).bind fun normalized =>
    match normalized with
    | .inherited _ => none
    | .text s =>
      if s = "" then some (.exact "")
      else if s = "*" then some .all
      else if '*' ∈ s.toList then some (.regex s)
      else some (.exact s)

def compileGlobPatterns (raw : List ToolName) : Option (List CompiledGlobPattern) :=
  (raw.mapM (compileGlobPattern cases)).map fun patterns => patterns.filter (· ≠ .exact "")

def CompiledGlobPattern.matches (value : ToolName) : CompiledGlobPattern → Bool
  | .all => true
  | .exact v => value = .text v
  | .regex glob => globMatches glob.toList value.coerced.toList

def matchesAnyGlobPattern (value : ToolName) (patterns : List CompiledGlobPattern) : Bool :=
  patterns.any (CompiledGlobPattern.matches value)

/-! ### One policy -/

structure ToolPolicyLike where
  allow : Option (List String) := none
  deny : Option (List String) := none
  deriving Repr, DecidableEq

/-- A policy whose plugin groups have been expanded. -/
structure ExpandedPolicy where
  allow : Option (List ToolName)
  deny : Option (List ToolName)
  deriving Repr, DecidableEq

/-- `apply_patch` is matched where `write` is. -/
def matchesTool (normalized : ToolName) (patterns : List CompiledGlobPattern) : Bool :=
  matchesAnyGlobPattern normalized patterns ||
    (normalized = .text "apply_patch" && matchesAnyGlobPattern (.text "write") patterns)

def compileList (list : Option (List ToolName)) : Option (List CompiledGlobPattern) :=
  (expandToolGroups cases (list.getD [])).bind (compileGlobPatterns cases)

def isToolAllowedByPolicyName (name : String) (policy : ExpandedPolicy) : Option Bool :=
  (compileList cases policy.deny).bind fun deny =>
    (compileList cases policy.allow).map fun allow =>
      let normalized := normalizeToolName cases name
      if matchesTool normalized deny then false
      else allow.isEmpty || matchesTool normalized allow

end Names

/-! ### Plugins -/

section Pipeline
variable {T : Type} (cases : CaseTables) (name : T → String) (toolMeta : T → Option String)

structure PluginToolGroups where
  all : List ToolName
  byPlugin : InsertionMap String (List ToolName)

def pluginKey (pluginId : String) : String := cases.toLowerCase (trim pluginId)

def addToGroups (groups : PluginToolGroups) (tool : T) : PluginToolGroups :=
  match toolMeta tool with
  | none => groups
  | some pluginId =>
    let toolName := normalizeToolName cases (name tool)
    let key := pluginKey cases pluginId
    let all := groups.all ++ [toolName]
    if key = "" then {groups with all := all}
    else ⟨all, groups.byPlugin.set key (((groups.byPlugin.get? key).getD []) ++ [toolName])⟩

def buildPluginToolGroups (tools : List T) : PluginToolGroups :=
  tools.foldl (addToGroups cases name toolMeta) ⟨[], ∅⟩

/-- The names that stand for an entry once plugins are expanded. -/
def expandPluginEntry (groups : PluginToolGroups) (entry : String) : List ToolName :=
  match normalizeToolName cases entry with
  | .inherited key => [.inherited key]
  | .text normalized =>
    if normalized = "group:plugins" then if groups.all.isEmpty then [.text normalized] else groups.all
    else
      match groups.byPlugin.get? normalized with
      | some (tool :: tools) => tool :: tools
      | _ => [.text normalized]

def expandPluginGroups (list : Option (List String)) (groups : PluginToolGroups) : Option (List ToolName) :=
  list.map fun list => (list.flatMap (expandPluginEntry cases groups)).eraseDups

def expandPolicyWithPluginGroups (policy : ToolPolicyLike) (groups : PluginToolGroups) : ExpandedPolicy :=
  ⟨expandPluginGroups cases policy.allow groups, expandPluginGroups cases policy.deny groups⟩

/-! ### Allow lists with unknown entries -/

structure AllowlistResolution where
  unknownAllowlist : List ToolName := []
  pluginOnlyAllowlist : Bool := false
  deriving Repr, DecidableEq

/-- What kind of entry it is; the core entries are looked for in its group. -/
def analyzeEntry (groups : PluginToolGroups) (coreTools : List ToolName) (resolution : AllowlistResolution)
    (entry : ToolName) : Option AllowlistResolution :=
  if entry = .text "*" then some {resolution with pluginOnlyAllowlist := false}
  else
    let isPluginEntry := entry = .text "group:plugins" || groups.all.contains entry ||
      groups.byPlugin.keys.any fun key => entry = .text key
    (expandToolGroups cases [entry]).map fun expanded =>
      let isCoreEntry := expanded.any coreTools.contains
      { unknownAllowlist := if !isCoreEntry && !isPluginEntry && !resolution.unknownAllowlist.contains entry then
          resolution.unknownAllowlist ++ [entry] else resolution.unknownAllowlist
        pluginOnlyAllowlist := resolution.pluginOnlyAllowlist && isPluginEntry }

/-- The policy itself is returned as it is. -/
def analyzeAllowlistByToolType (policy : ToolPolicyLike) (groups : PluginToolGroups) (coreTools : List ToolName) :
    Option AllowlistResolution :=
  (normalizeToolList cases ((policy.allow.getD []).map ToolName.text)).bind fun normalized =>
    if normalized.isEmpty then some {}
    else normalized.foldlM (analyzeEntry cases groups coreTools) {pluginOnlyAllowlist := true}

/-! ### The pipeline -/

structure ToolPolicyPipelineStep where
  policy : Option ToolPolicyLike
  stripPluginOnlyAllowlist : Bool := false
  deriving Repr, DecidableEq

def coreToolNames (tools : List T) : List ToolName :=
  ((tools.filter fun tool => (toolMeta tool).isNone).map fun tool => normalizeToolName cases (name tool)).filter
    ToolName.truthy

/-- The policy is compiled anew for each tool, and so not at all where there is none. -/
def filterToolsByPolicy (policy : ExpandedPolicy) : List T → Option (List T)
  | [] => some []
  | tool :: tools =>
    (isToolAllowedByPolicyName cases (name tool) policy).bind fun allowed =>
      (filterToolsByPolicy policy tools).map fun kept => if allowed then tool :: kept else kept

/-- One step; the groups are those of all tools, `filtered` is what the steps before left. -/
def applyStep (groups : PluginToolGroups) (coreTools : List ToolName) (filtered : List T)
    (step : ToolPolicyPipelineStep) : Option (List T) :=
  match step.policy with
  | none => some filtered
  | some policy =>
    let analysis := if step.stripPluginOnlyAllowlist then
      analyzeAllowlistByToolType cases policy groups coreTools else some {}
    analysis.bind fun _ => filterToolsByPolicy cases name (expandPolicyWithPluginGroups cases policy groups) filtered

def applyToolPolicyPipeline (tools : List T) (steps : List ToolPolicyPipelineStep) : Option (List T) :=
  steps.foldlM (applyStep cases name (buildPluginToolGroups cases name toolMeta tools)
    (coreToolNames cases name toolMeta tools)) tools

end Pipeline

end OpenClaw.Agents
