import BuildRules.Value.Basic

namespace BuildRules.Config

private def vendorSection : Value :=
  .ofFields [("enabled", .bool true), ("path", .text "vendor"), ("replaces", .text "crates-io"),
    ("source_name", .text "vendored-sources"), ("requires", .list [])]

private def aliasSection : Value :=
  .ofFields [("v-check", .text "__vendored check"), ("v-clippy", .text "__vendored clippy"),
    ("v-build", .text "__vendored build"), ("v-run", .text "__vendored run"),
    ("v-test", .text "__vendored test"), ("v", .text "vendor --verbose --versioned-dirs"),
    ("fmt-check", .text "fmt --verbose --all -- --check"),
    ("lint-check", .text "clippy --verbose --workspace --tests"),
    ("build-all", .text "build --verbose --workspace --tests"),
    ("test-all", .text "test --verbose --workspace --tests")]

private def lint (severity name : String) : Value :=
  .ofFields [("name", .text name), ("severity", .text severity)]

private def lintSection : Value :=
  .list [lint "warn" "let_underscore_drop", lint "warn" "clippy::uninlined_format_args",
    lint "deny" "non_ascii_idents", lint "warn" "clippy::cargo_common_metadata",
    lint "warn" "clippy::negative_feature_names", lint "warn" "clippy::redundant_feature_names",
    lint "deny" "clippy::wildcard_dependencies", lint "deny" "clippy::unwrap_used"]

private def stage (name alias_ : String) : Value :=
  .ofFields [("name", .text name), ("alias", .text alias_)]

private def pipelineSection : Value :=
  .ofFields
    [("triggers", .ofFields
      [("push", .ofTexts ["main"]), ("pull_request", .ofTexts ["main"])]),
    ("environment", .ofFields [("backtrace", .text "full"), ("force_color", .bool true)]),
    ("stages", .list [stage "format-check" "fmt-check", stage "lint-check" "lint-check",
      stage "build" "build-all", stage "test" "test-all"])]

/-- The policy as a configuration. -/
def packaged : Value :=
  .ofFields [("toolchain", .text "cargo"), ("vendor", vendorSection), ("aliases", aliasSection),
    ("lints", lintSection), ("pipeline", pipelineSection),
    ("doctor", .list [.ofTexts ["cargo", "--version"], .ofTexts ["rustc", "--version"]]),
    ("resolver", .ofFields [("max_depth", .int 32)])]

end BuildRules.Config
