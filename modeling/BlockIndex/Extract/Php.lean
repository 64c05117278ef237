import BlockIndex.Extract.Extractor
import BlockIndex.Extract.Braced

/-! PHP files: functions, functions bound to a variable, and methods of classes, interfaces, traits and
enumerations. -/

namespace BlockIndex.Extract.Php

open Text Header Header.Pattern

/-- Class headers such as `abstract final class C`, `interface I`, `trait T` and `enum E`. -/
def classHeader : Pattern :=
  sequence [modifiers "abstract" ["final", "readonly"],
    choice (literal "class") [literal "interface", literal "trait", literal "enum"], gap,
    identifier]

/-- Function headers such as `public static function &f(`. -/
def functionHeader : Pattern :=
  sequence [modifiers "public" ["private", "protected", "static", "abstract", "final"],
    literal "function", gap, optional (char '&'), spaces, identifier, spaces, char '(']

/-- Variables bound to functions, such as `$f = function` and `$f = static fn`. -/
def variableHeader : Pattern :=
  sequence [char '$', identifier, spaces, char '=', spaces, optional (wordGap "static"),
    .alt (literal "function") (literal "fn"), .notBefore isWord]

def shapes : List Shape :=
  [{ pattern := functionHeader },
   { pattern := variableHeader, mayBeExpression := true }]

def language : Language := bracedLanguage ["//", "#", "/*", "*"] classHeader shapes

def extractor : Extractor where
  name := "php"
  extensions := [".php"]
  extract path content := .ok (language.blocks path content)

end BlockIndex.Extract.Php
