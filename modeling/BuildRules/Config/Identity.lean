import BuildRules.Digest.Sha256
import BuildRules.Json.Render

namespace BuildRules.Config

inductive IdentityError where
  | notMap (kind : Kind)
  | shape (fault : Value.Fault)
deriving DecidableEq

def IdentityError.message : IdentityError → String
  | .notMap kind => "Config para hashing deve ser dict, recebido: " ++ kind.name
  | .shape _ => ""

/-- The text with sorted members and no white space. -/
def canonicalText (config : Value) : Except Value.Fault String := Json.write .compact config

def identity (config : Value) : Except IdentityError String :=
  match config with
  | .map _ =>
    match canonicalText config with
    | .ok text => .ok (Sha256.hex text.toUTF8.toList)
    | .error fault => .error (.shape fault)
  | _ => .error (.notMap config.kind)

end BuildRules.Config
