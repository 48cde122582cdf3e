import CondExpr.Compiled.Coverage
import CondExpr.Compiled.Render
import CondExpr.Compiler.Options
import CondExpr.Document.Reader

/-! # The compiler

  Compiles conditions, filters and condition documents under the options
  and with the encoder it was set up with.
-/

namespace CondExpr

/-- Why nothing was compiled. -/
inductive CompileError where
  /-- The tree cannot be rendered. -/
  | render (cause : RenderError)
  /-- A document names an operator that there is not. -/
  | unsupportedOperator (token : String)
  /-- The root token is refused. -/
  | root (cause : RootError)
  /-- Text and tables of the compiled expression disagree. -/
  | coverage (cause : CoverageError)
  /-- The document has another fault. -/
  | document (cause : DocumentError)
  deriving DecidableEq, Repr

namespace CompileError

/-- The error of a document that is refused. -/
def ofDocument : DocumentError → CompileError
  | .unsupportedOperator token => .unsupportedOperator token
  | e => .document e

/-- The wording of a compile error. -/
def message : CompileError → String
  | .render cause => cause.message
  | .unsupportedOperator token => unsupportedOperatorMessage token
  | .root cause => cause.message
  | .coverage cause => "Compiled expression failed validation: " ++ cause.message
  | .document cause => "Document error: " ++ cause.message

end CompileError

/-- A compiler; its options have been accepted. -/
structure Compiler where
  options : Options
  encode : Encoder
  accepted : options.check = .ok ()

namespace Compiler

/-! ## Section 1: Setting up -/

/-- The compiler with the standard options and the standard encoder. -/
def standard : Compiler := ⟨.standard, .standard, by rfl⟩

/-- The compiler with the given options and the standard encoder. -/
def withOptions (o : Options) : Except RootError Compiler :=
  match h : o.check with
  | .ok () => .ok ⟨o, .standard, h⟩
  | .error e => .error e

/-- The compiler with another encoder. -/
def withEncoder (compiler : Compiler) (encode : Encoder) : Compiler :=
  { compiler with encode }

/-! ## Section 2: Trees -/

/-- Checks the coverage of what was compiled, if the options ask for it. -/
def finish (compiler : Compiler) (c : CompiledExpression) :
    Except CompileError CompiledExpression := do
  if compiler.options.checkCoverage then c.checkCoverage.mapError .coverage
  return c

/-- Compiles a condition under a root token. -/
def conditionUnder (compiler : Compiler) (token : String) (c : Condition) :
    Except CompileError CompiledExpression := do
  (checkRoot token).mapError .root
  let compiled ← (c.render compiler.encode (.root token)).mapError .render
  compiler.finish compiled

/-- Compiles a filter under a root token. -/
def filterUnder (compiler : Compiler) (token : String) (f : Filter) :
    Except CompileError CompiledExpression := do
  (checkRoot token).mapError .root
  let compiled ← (f.render compiler.encode token).mapError .render
  compiler.finish compiled

/-- Compiles a condition. -/
def condition (compiler : Compiler) (c : Condition) : Except CompileError CompiledExpression :=
  compiler.conditionUnder compiler.options.conditionRoot c

/-- Compiles a filter. -/
def filter (compiler : Compiler) (f : Filter) : Except CompileError CompiledExpression :=
  compiler.filterUnder compiler.options.filterRoot f

/-! ## Section 3: Documents -/

/-- Compiles the condition of a document. -/
def conditionDocument (compiler : Compiler) (doc : Json) :
    Except CompileError CompiledExpression := do
  let c ← (Document.read doc).mapError .ofDocument
  compiler.condition c

/-- Compiles the filter of a document. -/
def filterDocument (compiler : Compiler) (doc : Json) :
    Except CompileError CompiledExpression := do
  let f ← (Document.readFilter doc).mapError .ofDocument
  compiler.filter f

end Compiler
end CondExpr
