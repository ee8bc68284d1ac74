import BuildRules.Register
import BuildRules.Stage.Basic
import BuildRules.Value.Distinct
import BuildRules.Value.Sorted

namespace BuildRules

/-- Stages in order of registration. -/
structure StageRegistry where
  stages : List Stage
  namesDistinct : (stages.map Stage.name).Nodup
  ordinalsDistinct : (stages.map Stage.ordinal).Nodup

namespace StageRegistry

def empty : StageRegistry := ⟨[], List.nodup_nil, List.nodup_nil⟩

def find? (registry : StageRegistry) (name : String) : Option Stage :=
  registry.stages.find? fun stage => stage.name == name

def names (registry : StageRegistry) : List String := registry.stages.map Stage.name

def add (registry : StageRegistry) (stage : Stage) : Except PolicyError StageRegistry :=
  if nameTaken : (registry.stages.map Stage.name).contains stage.name then
    .error (.raised (.stageNameDuplicate stage.name))
  else if ordinalTaken : (registry.stages.map Stage.ordinal).contains stage.ordinal then
    .error (.raised (.stageOrdinalDuplicate stage.ordinal stage.name))
  else
    .ok ⟨registry.stages ++ [stage],
      Distinct.nodup_append registry.namesDistinct nameTaken,
      Distinct.nodup_append registry.ordinalsDistinct ordinalTaken⟩

def ofList (stages : List Stage) : Except PolicyError StageRegistry :=
  stages.foldlM add empty

/-- Each stage is filed under its name, and no other has its ordinal. -/
def filing : Filing Stage Stage where
  item := id
  name := Stage.name
  number? stage := some stage.ordinal
  forbidden _ := false
  error
    | .numberTaken, stage => .stageOrdinalDuplicate stage.ordinal stage.name
    | _, stage => .stageNameDuplicate stage.name

end StageRegistry

/-- Stages by ascending ordinal. -/
def planStages (stages : List Stage) : Except PolicyError (List Stage) := do
  let registry ← StageRegistry.ofList stages
  .ok (Sorted.sort (fun left right => decide (left.ordinal ≤ right.ordinal)) registry.stages)

end BuildRules
