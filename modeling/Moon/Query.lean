import Moon.TaskInputs

/-!
# The query language

A query is built from what the parser returns into criteria: comparisons of fields, joined by
one logical operator and nested in groups.
-/

namespace Moon

inductive LanguageType
  | bash
  | batch
  | cPlusPlus
  | cSharp
  | dotNet
  | go
  | java
  | javaScript
  | kotlin
  | php
  | python
  | ruby
  | rust
  | swift
  | typeScript
  | unknown
  | other (id : Id)
deriving DecidableEq

inductive LayerType
  | application
  | automation
  | configuration
  | library
  | scaffolding
  | tool
  | unknown
deriving DecidableEq

inductive StackType
  | backend
  | data
  | frontend
  | infrastructure
  | systems
  | unknown
deriving DecidableEq

inductive LogicalOperator
  | and
  | or
deriving DecidableEq

inductive ComparisonOperator
  | equal
  | notEqual
  | like
  | notLike
deriving DecidableEq

inductive Field
  | language (values : List LanguageType)
  | project (values : List String)
  | projectAlias (values : List String)
  | projectId (values : List String)
  | projectLayer (values : List LayerType)
  | projectSource (values : List String)
  | projectStack (values : List StackType)
  | projectTag (values : List String)
  | task (values : List String)
  | taskTag (values : List String)
  | taskToolchain (values : List String)
  | taskType (values : List TaskType)
deriving DecidableEq

inductive Condition
  | field (field : Field) (op : ComparisonOperator)
  | criteria (op : LogicalOperator) (conditions : List Condition)

structure Criteria where
  op : LogicalOperator := .and
  conditions : List Condition := []

inductive QueryError
  | logicalOperatorMismatch
  | unknownField (field : String)
  | unknownFieldValue (field value : String)
  | unsupportedLikeOperator (field : String)
deriving DecidableEq

inductive AstNode
  | comparison (field : String) (op : ComparisonOperator) (value : List String)
  | op (op : LogicalOperator)
  | group (nodes : List AstNode)

structure EnumParsers where
  language : String → Option LanguageType
  layer : String → Option LayerType
  stack : String → Option StackType
  taskType : String → Option TaskType

def buildCriteriaEnum {T : Type} (parse : String → Option T) (field : String)
    (op : ComparisonOperator) (values : List String) : Except QueryError (List T) :=
  if op = .like ∨ op = .notLike then
    .error (.unsupportedLikeOperator field)
  else
    values.mapM (fun value =>
      match parse value with
      | some parsed => .ok parsed
      | none => .error (.unknownFieldValue field value))

def buildField (parsers : EnumParsers) (field : String) (op : ComparisonOperator)
    (value : List String) : Except QueryError Field :=
  match field with
  | "language" => (buildCriteriaEnum parsers.language field op value).map .language
  | "project" => .ok (.project value)
  | "projectAlias" | "projectAliases" => .ok (.projectAlias value)
  | "projectLayer" => (buildCriteriaEnum parsers.layer field op value).map .projectLayer
  | "projectId" => .ok (.projectId value)
  | "projectSource" => .ok (.projectSource value)
  | "projectStack" => (buildCriteriaEnum parsers.stack field op value).map .projectStack
  | "projectTag" | "projectTags" | "tag" => .ok (.projectTag value)
  | "task" => .ok (.task value)
  | "taskTag" | "taskTags" => .ok (.taskTag value)
  | "taskToolchain" | "taskToolchains" => .ok (.taskToolchain value)
  | "taskType" => (buildCriteriaEnum parsers.taskType field op value).map .taskType
  | _ => .error (.unknownField field)

/-- The loop of `build_criteria`, with the operator and the conditions so far. -/
def buildNodes (parsers : EnumParsers) (op : Option LogicalOperator)
    (conditions : List Condition) : List AstNode →
      Except QueryError (LogicalOperator × List Condition)
  | [] => .ok (op.getD .and, conditions)
  | .comparison field fieldOp value :: rest => do
    let field ← buildField parsers field fieldOp value
    buildNodes parsers op (conditions ++ [.field field fieldOp]) rest
  | .op nextOp :: rest =>
    match op with
    | some currentOp =>
      if nextOp ≠ currentOp then .error .logicalOperatorMismatch
      else buildNodes parsers op conditions rest
    | none => buildNodes parsers (some nextOp) conditions rest
  | .group nodes :: rest => do
    let (groupOp, groupConditions) ← buildNodes parsers none [] nodes
    buildNodes parsers op (conditions ++ [.criteria groupOp groupConditions]) rest

namespace ComparisonOperator

variable (engine : GlobEngine) (op : ComparisonOperator)

def test (haystack : List String) (needle : String) : Except String Bool :=
  match op with
  | equal => .ok (haystack.contains needle)
  | notEqual => .ok (!haystack.contains needle)
  | like => (GlobSet.new engine haystack).map (fun globset => globset.isIncluded needle)
  | notLike => (GlobSet.new engine haystack).map (fun globset => !globset.isIncluded needle)

def testList (haystack : List String) : List String → Except String Bool
  | [] => .ok false
  | needle :: needles => do
    if ← op.test engine haystack needle then
      return true
    testList haystack needles

/-- Like operators are not supported. -/
def testEnum {T : Type} [DecidableEq T] (haystack : List T) (needle : T) : Bool :=
  match op with
  | equal => haystack.contains needle
  | notEqual => !haystack.contains needle
  | _ => false

end ComparisonOperator

structure QueryProject where
  aliases : List String := []
  id : Id
  language : LanguageType := .unknown
  layer : LayerType := .unknown
  source : String
  stack : StackType := .unknown
  tags : List Id := []
  taskTargets : List Target := []
deriving DecidableEq

structure QueryTask where
  id : Id
  tags : List Id := []
  target : Target
  toolchains : List Id := []
  typeOf : TaskType := .test
deriving DecidableEq

structure QueryGraph where
  engine : GlobEngine
  projects : List QueryProject
  tasks : List QueryTask
  expandError : Target → Option String := fun _ => none

def unwrapOrDefault {ε : Type} : Except ε Bool → Bool
  | .ok value => value
  | .error _ => false

def isUnstable (id : Id) : Bool := "unstable_".toList.isPrefixOf id.toList

def stableId (id : Id) : Id :=
  if isUnstable id then String.ofList (id.toList.drop "unstable_".toList.length) else id

def unstableId (id : Id) : Id := if isUnstable id then id else "unstable_" ++ id

def stableAndUnstable (id : Id) : List Id := [stableId id, unstableId id]

namespace QueryGraph

variable (graph : QueryGraph)

def getProjectUnexpanded (idOrAlias : String) : Except String QueryProject :=
  match graph.projects.find? (fun project => project.id == idOrAlias) with
  | some project => .ok project
  | none =>
    match graph.projects.find? (fun project => project.aliases.contains idOrAlias) with
    | some project => .ok project
    | none => .error idOrAlias

/-- A task of the graph, expanded. Nothing that a query reads changes by that. -/
def getTask (target : Target) : Except String QueryTask :=
  match graph.tasks.find? (fun task => task.target = target) with
  | none => .error target.asStr
  | some task =>
    match graph.expandError target with
    | some error => .error error
    | none => .ok task

def getManyTasks (targets : List Target) : Except String (List QueryTask) :=
  targets.mapM graph.getTask

def projectFieldMatches (project : QueryProject) (field : Field) (op : ComparisonOperator) :
    Except String Bool :=
  match field with
  | .language langs => .ok (op.testEnum langs project.language)
  | .project ids => do
    if ← op.test graph.engine ids project.id then
      return true
    else if !project.aliases.isEmpty then
      op.testList graph.engine ids project.aliases
    else
      return false
  | .projectAlias aliases =>
    if !project.aliases.isEmpty then
      op.testList graph.engine aliases project.aliases
    else
      .ok false
  | .projectLayer types => .ok (op.testEnum types project.layer)
  | .projectId ids => op.test graph.engine ids project.id
  | .projectSource sources => op.test graph.engine sources project.source
  | .projectStack types => .ok (op.testEnum types project.stack)
  | .projectTag tags => op.testList graph.engine tags project.tags
  | .task ids =>
    .ok (project.taskTargets.any (fun target =>
      match target.getTaskId with
      | some taskId => unwrapOrDefault (op.test graph.engine ids taskId)
      | none => false))
  | .taskTag tags => do
    let tasks ← graph.getManyTasks project.taskTargets
    return tasks.any (fun task => unwrapOrDefault (op.testList graph.engine tags task.tags))
  | .taskToolchain ids => do
    let tasks ← graph.getManyTasks project.taskTargets
    return tasks.any (fun task => unwrapOrDefault
      (op.testList graph.engine ids (task.toolchains.flatMap stableAndUnstable)))
  | .taskType types => do
    let tasks ← graph.getManyTasks project.taskTargets
    return tasks.any (fun task => op.testEnum types task.typeOf)

def getTaskParentProject (task : QueryTask) : Except String (Option QueryProject) :=
  match task.target.getProjectId with
  | some projectId => (graph.getProjectUnexpanded projectId).map some
  | none => .ok none

def taskFieldMatches (task : QueryTask) (field : Field) (op : ComparisonOperator) :
    Except String Bool :=
  match field with
  | .project ids =>
    match task.target.getProjectId with
    | none => .ok false
    | some projectId => do
      if ← op.test graph.engine ids projectId then
        return true
      match ← graph.getTaskParentProject task with
      | some project =>
        if !project.aliases.isEmpty then
          op.testList graph.engine ids project.aliases
        else
          return false
      | none => return false
  | .task ids => op.test graph.engine ids task.id
  | .taskTag tags => op.testList graph.engine tags task.tags
  | .taskToolchain ids => op.testList graph.engine ids task.toolchains
  | .taskType types => .ok (op.testEnum types task.typeOf)
  | _ => .ok false

end QueryGraph

section Evaluate

variable (fieldMatches : Field → ComparisonOperator → Except String Bool)

mutual

def Condition.evaluate : Condition → Except String Bool
  | .field field op => fieldMatches field op
  | .criteria op conditions => evaluateAll op false conditions

def evaluateAll (op : LogicalOperator) (matchedAny : Bool) : List Condition → Except String Bool
  | [] => .ok matchedAny
  | condition :: conditions => do
    if ← condition.evaluate then
      match op with
      | .and => evaluateAll op true conditions
      | .or => return true
    else
      match op with
      | .and => return false
      | .or => evaluateAll op matchedAny conditions

end

end Evaluate

namespace QueryGraph

variable (graph : QueryGraph)

def doesProjectMatchCriteria (project : QueryProject) (query : Criteria) : Except String Bool :=
  evaluateAll (graph.projectFieldMatches project) query.op false query.conditions

def doesTaskMatchCriteria (task : QueryTask) (query : Criteria) : Except String Bool :=
  evaluateAll (graph.taskFieldMatches task) query.op false query.conditions

end QueryGraph

end Moon
