import BuildRules.Value.Display
import BuildRules.Workspace.FileTree

namespace BuildRules

inductive ConfigError where
  | policyMissing (path : String)
  | formatUnknown (suffix : String)
  | rootNotMap (kind : Kind)
  | mergeOfNonMaps (base layer : Kind)
  | mergeConflict (key : Scalar) (base layer : Kind)
  | sectionKind (section_ : String) (expected found : Kind)
  | toolchainBlank
  | vendorSection (kind : Kind)
  | vendorEnabledNotBool
  | vendorPathBlank
  | vendorRequiresNotList
  | requirementMalformed (raw : Value)
  | vendorDirectoryMissing (path : String)
  | vendoredMissing (path : String) (missing : List String)
  | aliasNameBlank
  | aliasDefinition (name : String) (kind : Kind)
  | aliasToken (name : String) (raw : Value)
  | aliasSection (kind : Kind)
  | aliasReserved (name : String)
  | aliasDuplicate (name : String)
  | lintSection (kind : Kind)
  | lintMalformed (raw : Value)
  | lintNameless (raw : Value)
  | lintSeverity (name : String) (raw : Value)
  | stagesNotList
  | stageNotMap (ordinal : Int) (raw : Value)
  | stageNameless (ordinal : Int)
  | stageCommand (name : String)
  | stageAlias (name : String)
  | stageArguments (name : String)
  | stageOrdinal (name : String)
  | stageAliasUndeclared (stage alias_ : String)
  | stageNameDuplicate (name : String)
  | stageOrdinalDuplicate (ordinal : Int) (name : String)
  | triggersNotMap
  | triggerUnknown (event : Scalar)
  | triggerBranches (event : String)
  | environmentNotMap
  | depthLimit
  | doctorCommand (raw : Value)

/-- What part of the policy a fault belongs to. -/
inductive ConfigError.Category where
  | policyMissing | formatUnknown | root | conflict | vendorDirectory | vendoredMissing
  | aliases | lints | pipeline | duplicateStage | general
deriving DecidableEq

namespace ConfigError

def category : ConfigError → Category
  | .policyMissing _ => .policyMissing
  | .formatUnknown _ => .formatUnknown
  | .rootNotMap _ => .root
  | .mergeOfNonMaps .. | .mergeConflict .. => .conflict
  | .vendorDirectoryMissing _ => .vendorDirectory
  | .vendoredMissing .. => .vendoredMissing
  | .aliasNameBlank | .aliasDefinition .. | .aliasToken .. | .aliasSection _
  | .aliasReserved _ | .aliasDuplicate _ => .aliases
  | .lintSection _ | .lintMalformed _ | .lintNameless _ | .lintSeverity .. => .lints
  | .stageNameDuplicate _ | .stageOrdinalDuplicate .. => .duplicateStage
  | .stagesNotList | .stageNotMap .. | .stageNameless _ | .stageCommand _ | .stageAlias _
  | .stageArguments _ | .stageOrdinal _ | .stageAliasUndeclared .. | .triggersNotMap
  | .triggerUnknown _ | .triggerBranches _ => .pipeline
  | .sectionKind .. | .toolchainBlank | .vendorSection _ | .vendorEnabledNotBool
  | .vendorPathBlank | .vendorRequiresNotList | .requirementMalformed _
  | .environmentNotMap | .depthLimit | .doctorCommand _ => .general

/-- What an error says. A value that has no text leaves it without a message. -/
def message : ConfigError → Except Value.Fault String
  | .policyMissing path => .ok ("Arquivo de defaults não encontrado: " ++ path)
  | .formatUnknown suffix => .ok ("Formato não suportado: " ++ suffix)
  | .rootNotMap kind => .ok ("Config root deve ser dict, recebido: " ++ kind.name)
  | .mergeOfNonMaps base layer =>
    .ok ("Deep-merge requer dicts no nível raiz, recebido: " ++ base.name ++ " vs " ++ layer.name)
  | .mergeConflict key base layer => do
    .ok ("Conflito de tipo na chave '" ++ (← key.display) ++ "': " ++ base.name ++ " vs " ++
      layer.name)
  | .sectionKind section_ expected found =>
    .ok ("Seção '" ++ section_ ++ "' deve ser " ++ expected.name ++ ", recebido: " ++ found.name)
  | .toolchainBlank => .ok "toolchain deve ser string não vazia"
  | .vendorSection kind => .ok ("Seção 'vendor' deve ser dict, recebido: " ++ kind.name)
  | .vendorEnabledNotBool => .ok "vendor.enabled deve ser booleano"
  | .vendorPathBlank => .ok "vendor.path deve ser string não vazia"
  | .vendorRequiresNotList => .ok "vendor.requires deve ser lista"
  | .requirementMalformed raw => do
    .ok ("Dependência vendorizada inválida: " ++ (← raw.quoted))
  | .vendorDirectoryMissing path =>
    .ok ("Diretório de vendor não encontrado ou ilegível: " ++ path)
  | .vendoredMissing path missing =>
    .ok ("Dependências ausentes em '" ++ path ++ "': " ++ ", ".intercalate missing)
  | .aliasNameBlank => .ok "Nome de alias deve ser string não vazia"
  | .aliasDefinition name kind =>
    .ok ("Alias '" ++ name ++ "' deve ser string ou lista, recebido: " ++ kind.name)
  | .aliasToken name raw => do
    .ok ("Token inválido no alias '" ++ name ++ "': " ++ (← raw.quoted))
  | .aliasSection kind => .ok ("Seção 'aliases' deve ser dict, recebido: " ++ kind.name)
  | .aliasReserved name =>
    .ok ("Alias '" ++ name ++ "' é reservado e não pode ser declarado na configuração")
  | .aliasDuplicate name => .ok ("Alias duplicado: " ++ name)
  | .lintSection kind => .ok ("Seção 'lints' deve ser lista, recebido: " ++ kind.name)
  | .lintMalformed raw => do .ok ("Regra de lint inválida: " ++ (← raw.quoted))
  | .lintNameless raw => do .ok ("Regra de lint sem nome: " ++ (← raw.quoted))
  | .lintSeverity name raw => do
    .ok ("Severidade inválida para '" ++ name ++ "': " ++ (← raw.quoted) ++ " (use warn|deny)")
  | .stagesNotList => .ok "pipeline.stages deve ser lista"
  | .stageNotMap ordinal raw => do
    .ok ("Estágio #" ++ (← Number.display ordinal) ++ " deve ser dict, recebido: " ++
      (← raw.quoted))
  | .stageNameless ordinal => do .ok ("Estágio #" ++ (← Number.display ordinal) ++ " sem nome")
  | .stageCommand name =>
    .ok ("Estágio '" ++ name ++ "' deve declarar exatamente um entre 'alias' e 'args'")
  | .stageAlias name => .ok ("Estágio '" ++ name ++ "': alias inválido")
  | .stageArguments name => .ok ("Estágio '" ++ name ++ "': args deve ser lista de strings")
  | .stageOrdinal name => .ok ("Estágio '" ++ name ++ "': ordinal deve ser inteiro")
  | .stageAliasUndeclared stage alias_ =>
    .ok ("Estágio '" ++ stage ++ "' referencia alias inexistente: " ++ alias_)
  | .stageNameDuplicate name => .ok ("Duplicate stage name: " ++ name)
  | .stageOrdinalDuplicate ordinal name => do
    .ok ("Duplicate stage ordinal: " ++ (← Number.display ordinal) ++ " (" ++ name ++ ")")
  | .triggersNotMap => .ok "pipeline.triggers deve ser dict"
  | .triggerUnknown event => do
    .ok ("Evento de gatilho desconhecido: " ++ (← event.quoted) ++ " (use push, pull_request)")
  | .triggerBranches event =>
    .ok ("pipeline.triggers." ++ event ++ " deve ser lista de branches")
  | .environmentNotMap => .ok "pipeline.environment deve ser dict"
  | .depthLimit => .ok "resolver.max_depth deve ser inteiro >= 1"
  | .doctorCommand raw => do .ok ("Comando de doctor inválido: " ++ (← raw.quoted))

/-- The message of an error that was raised, which thus has one. -/
def said (error : ConfigError) : String := error.message.toOption.getD ""

end ConfigError

/-- What keeps a policy from being read. -/
inductive PolicyError where
  | config (error : ConfigError)
  /-- A value that has no text or no document, or entries asked of what is no map. -/
  | shape (fault : Value.Fault)
  | system (fault : FileTree.Fault)

/-- An error is raised with its message: what keeps that from being made is raised instead. -/
def PolicyError.raised (error : ConfigError) : PolicyError :=
  match error.message with
  | .ok _ => .config error
  | .error fault => .shape fault

end BuildRules
