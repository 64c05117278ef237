import BlockIndex.Extract.Extractor
import BlockIndex.Extract.Braced

/-! JavaScript and TypeScript files: functions, functions bound to a variable or a property, and class
members. -/

namespace BlockIndex.Extract.JavaScript

open Text Header Header.Pattern

/-- Class headers such as `export default declare abstract class C` and `interface I`. -/
def classHeader : Pattern :=
  sequence [optional (wordGap "export"), optional (wordGap "default"),
    optional (wordGap "declare"), optional (wordGap "abstract"),
    .alt (literal "class") (literal "interface"), gap, identifier]

/-- Function headers such as `export default async function* f(` and `function f<`. -/
def functionHeader : Pattern :=
  sequence [optional (wordGap "export"), optional (wordGap "default"),
    optional (wordGap "async"), literal "function", spaces, optional (char '*'), spaces,
    identifier, spaces, .alt (char '(') (char '<')]

/-- A type after a colon, up to an equals sign. -/
def annotation : Pattern := sequence [char ':', several (.one (· != '='))]

/-- Parameters in parentheses, with no closing parenthesis among them. -/
def parameters : Pattern := sequence [char '(', except ')', char ')']

/-- The start of a function value: `function`, `(…) =>`, `(…): T =>` or `x =>`. -/
def functionValue : Pattern :=
  choice (wholeWord "function")
    [sequence [parameters, spaces, optional annotation, literal "=>"],
     sequence [anyWord, spaces, literal "=>"]]

/-- Variables bound to functions, such as `const f = (…) =>` and `let f: T = async function`. -/
def variableHeader : Pattern :=
  sequence [optional (wordGap "export"),
    choice (literal "const") [literal "let", literal "var"], gap, identifier, spaces,
    optional annotation, char '=', spaces, optional (wordGap "async"), functionValue]

/-- Properties bound to functions, such as `f: (…) =>` and `f: async function`. -/
def propertyHeader : Pattern :=
  sequence [identifier, spaces, char ':', spaces, optional (wordGap "async"), functionValue]

/-- Class members such as `static async m(…) {`, `get p() {` and `*g<T>(…): R {`. -/
def memberHeader : Pattern :=
  sequence [modifiers "public" ["private", "protected", "static", "async", "override", "abstract",
      "readonly", "get", "set"],
    optional (char '*'), identifier, spaces,
    optional (sequence [char '<', except '>', char '>']), spaces, parameters,
    .many (.one fun c => c != '{' && c != ';'), char '{']

def shapes : List Shape :=
  [{ pattern := functionHeader },
   { pattern := variableHeader, mayBeExpression := true },
   { pattern := propertyHeader, mayBeExpression := true },
   { pattern := memberHeader, inClassOnly := true }]

def language : Language := bracedLanguage ["//", "/*", "*"] classHeader shapes

def extractor : Extractor where
  name := "javascript"
  extensions := [".js", ".jsx", ".ts", ".tsx", ".mjs", ".cjs"]
  extract path content := .ok (language.blocks path content)

end BlockIndex.Extract.JavaScript
