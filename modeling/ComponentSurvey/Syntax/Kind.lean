/-!
# Kinds of syntax nodes

Every node of a syntax tree has one kind.  `Kind.label` is the name under which a kind is asked
for and reported.  The last three kinds stand for mere tokens: the mark of an optional member and
the words of two predefined types, which share their labels with literals.
-/

namespace ComponentSurvey.Syntax

inductive Kind
  | program | hashBangLine | comment | pageComment | exportStatement | namespaceExport
  | exportClause | exportSpecifier | importStatement | importClause | namespaceImport | namedImports
  | importSpecifier | importAttribute | importRequireClause | importAlias
  | debuggerStatement | expressionStatement | variableDeclaration | lexicalDeclaration
  | variableDeclarator | statementBlock | elseClause | ifStatement | switchStatement | switchBody
  | switchCase | switchDefault | forStatement | forInStatement | whileStatement | doStatement
  | tryStatement | catchClause | finallyClause | withStatement | breakStatement
  | continueStatement | returnStatement | throwStatement | emptyStatement | labeledStatement
  | functionDeclaration | generatorFunctionDeclaration | functionSignature | functionExpression
  | generatorFunction | arrowFunction | methodDefinition | methodSignature
  | abstractMethodSignature | formalParameters | requiredParameter | optionalParameter
  | accessibilityModifier | overrideModifier | decorator | classExpression | classDeclaration
  | abstractClassDeclaration | classHeritage | extendsClause | implementsClause | classBody
  | classStaticBlock | publicFieldDefinition
  | parenthesizedExpression | sequenceExpression | assignmentExpression
  | augmentedAssignmentExpression | ternaryExpression | binaryExpression | unaryExpression
  | updateExpression | awaitExpression | yieldExpression | asExpression | satisfiesExpression
  | typeAssertion | nonNullExpression | instantiationExpression | callExpression | newExpression
  | memberExpression | subscriptExpression | arguments | spreadElement | object | array | pair
  | computedPropertyName | metaProperty | importKeyword | thisKeyword | superKeyword
  | trueLiteral | falseLiteral | nullLiteral | undefinedLiteral | number | string
  | templateString | templateSubstitution | regex
  | identifier | propertyIdentifier | privatePropertyIdentifier | shorthandPropertyIdentifier
  | shorthandPropertyIdentifierPattern | statementIdentifier | nestedIdentifier | objectPattern
  | arrayPattern | pairPattern | assignmentPattern | objectAssignmentPattern | restPattern
  | jsxElement | jsxSelfClosingElement | jsxOpeningElement | jsxClosingElement | jsxAttribute
  | jsxExpression | jsxNamespaceName | htmlCharacterReference
  | interfaceDeclaration | interfaceBody | extendsTypeClause | typeAliasDeclaration
  | enumDeclaration | enumBody | enumAssignment | ambientDeclaration | moduleDeclaration
  | internalModule
  | typeAscription | omittingAscription | addingAscription | optingAscription
  | assertsAscription | predicateAscription | asserts | typePredicate | typeIdentifier
  | nestedTypeIdentifier | genericType | typeArguments | typeParameters | typeParameter
  | defaultType | constraint | predefinedType | literalType | thisType | existentialType
  | objectType | propertySignature | callSignature | constructSignature | indexSignature
  | mappedTypeClause | arrayType | tupleType | optionalType | restType | readonlyType
  | lookupType | indexTypeQuery | typeQuery | unionType | intersectionType | conditionalType
  | functionType | constructorType | inferType | parenthesizedType | flowMaybeType
  | templateLiteralType | templateType | constType
  | optionalMark | stringWord | numberWord
deriving DecidableEq, Repr, Inhabited

namespace Kind

def label : Kind → String
  | .program => "program"
  | .hashBangLine => "hash_bang_line"
  | .comment => "comment"
  | .pageComment => "html_comment"
  | .exportStatement => "export_statement"
  | .namespaceExport => "namespace_export"
  | .exportClause => "export_clause"
  | .exportSpecifier => "export_specifier"
  | .importStatement => "import_statement"
  | .importClause => "import_clause"
  | .namespaceImport => "namespace_import"
  | .namedImports => "named_imports"
  | .importSpecifier => "import_specifier"
  | .importAttribute => "import_attribute"
  | .importRequireClause => "import_require_clause"
  | .importAlias => "import_alias"
  | .debuggerStatement => "debugger_statement"
  | .expressionStatement => "expression_statement"
  | .variableDeclaration => "variable_declaration"
  | .lexicalDeclaration => "lexical_declaration"
  | .variableDeclarator => "variable_declarator"
  | .statementBlock => "statement_block"
  | .elseClause => "else_clause"
  | .ifStatement => "if_statement"
  | .switchStatement => "switch_statement"
  | .switchBody => "switch_body"
  | .switchCase => "switch_case"
  | .switchDefault => "switch_default"
  | .forStatement => "for_statement"
  | .forInStatement => "for_in_statement"
  | .whileStatement => "while_statement"
  | .doStatement => "do_statement"
  | .tryStatement => "try_statement"
  | .catchClause => "catch_clause"
  | .finallyClause => "finally_clause"
  | .withStatement => "with_statement"
  | .breakStatement => "break_statement"
  | .continueStatement => "continue_statement"
  | .returnStatement => "return_statement"
  | .throwStatement => "throw_statement"
  | .emptyStatement => "empty_statement"
  | .labeledStatement => "labeled_statement"
  | .functionDeclaration => "function_declaration"
  | .generatorFunctionDeclaration => "generator_function_declaration"
  | .functionSignature => "function_signature"
  | .functionExpression => "function_expression"
  | .generatorFunction => "generator_function"
  | .arrowFunction => "arrow_function"
  | .methodDefinition => "method_definition"
  | .methodSignature => "method_signature"
  | .abstractMethodSignature => "abstract_method_signature"
  | .formalParameters => "formal_parameters"
  | .requiredParameter => "required_parameter"
  | .optionalParameter => "optional_parameter"
  | .accessibilityModifier => "accessibility_modifier"
  | .overrideModifier => "override_modifier"
  | .decorator => "decorator"
  | .classExpression => "class"
  | .classDeclaration => "class_declaration"
  | .abstractClassDeclaration => "abstract_class_declaration"
  | .classHeritage => "class_heritage"
  | .extendsClause => "extends_clause"
  | .implementsClause => "implements_clause"
  | .classBody => "class_body"
  | .classStaticBlock => "class_static_block"
  | .publicFieldDefinition => "public_field_definition"
  | .parenthesizedExpression => "parenthesized_expression"
  | .sequenceExpression => "sequence_expression"
  | .assignmentExpression => "assignment_expression"
  | .augmentedAssignmentExpression => "augmented_assignment_expression"
  | .ternaryExpression => "ternary_expression"
  | .binaryExpression => "binary_expression"
  | .unaryExpression => "unary_expression"
  | .updateExpression => "update_expression"
  | .awaitExpression => "await_expression"
  | .yieldExpression => "yield_expression"
  | .asExpression => "as_expression"
  | .satisfiesExpression => "satisfies_expression"
  | .typeAssertion => "type_assertion"
  | .nonNullExpression => "non_null_expression"
  | .instantiationExpression => "instantiation_expression"
  | .callExpression => "call_expression"
  | .newExpression => "new_expression"
  | .memberExpression => "member_expression"
  | .subscriptExpression => "subscript_expression"
  | .arguments => "arguments"
  | .spreadElement => "spread_element"
  | .object => "object"
  | .array => "array"
  | .pair => "pair"
  | .computedPropertyName => "computed_property_name"
  | .metaProperty => "meta_property"
  | .importKeyword => "import"
  | .thisKeyword => "this"
  | .superKeyword => "super"
  | .trueLiteral => "true"
  | .falseLiteral => "false"
  | .nullLiteral => "null"
  | .undefinedLiteral => "undefined"
  | .number => "number"
  | .string => "string"
  | .templateString => "template_string"
  | .templateSubstitution => "template_substitution"
  | .regex => "regex"
  | .identifier => "identifier"
  | .propertyIdentifier => "property_identifier"
  | .privatePropertyIdentifier => "private_property_identifier"
  | .shorthandPropertyIdentifier => "shorthand_property_identifier"
  | .shorthandPropertyIdentifierPattern => "shorthand_property_identifier_pattern"
  | .statementIdentifier => "statement_identifier"
  | .nestedIdentifier => "nested_identifier"
  | .objectPattern => "object_pattern"
  | .arrayPattern => "array_pattern"
  | .pairPattern => "pair_pattern"
  | .assignmentPattern => "assignment_pattern"
  | .objectAssignmentPattern => "object_assignment_pattern"
  | .restPattern => "rest_pattern"
  | .jsxElement => "jsx_element"
  | .jsxSelfClosingElement => "jsx_self_closing_element"
  | .jsxOpeningElement => "jsx_opening_element"
  | .jsxClosingElement => "jsx_closing_element"
  | .jsxAttribute => "jsx_attribute"
  | .jsxExpression => "jsx_expression"
  | .jsxNamespaceName => "jsx_namespace_name"
  | .htmlCharacterReference => "html_character_reference"
  | .interfaceDeclaration => "interface_declaration"
  | .interfaceBody => "interface_body"
  | .extendsTypeClause => "extends_type_clause"
  | .typeAliasDeclaration => "type_alias_declaration"
  | .enumDeclaration => "enum_declaration"
  | .enumBody => "enum_body"
  | .enumAssignment => "enum_assignment"
  | .ambientDeclaration => "ambient_declaration"
  | .moduleDeclaration => "module"
  | .internalModule => "internal_module"
  | .typeAscription => "type_annotation"
  | .omittingAscription => "omitting_type_annotation"
  | .addingAscription => "adding_type_annotation"
  | .optingAscription => "opting_type_annotation"
  | .assertsAscription => "asserts_annotation"
  | .predicateAscription => "type_predicate_annotation"
  | .asserts => "asserts"
  | .typePredicate => "type_predicate"
  | .typeIdentifier => "type_identifier"
  | .nestedTypeIdentifier => "nested_type_identifier"
  | .genericType => "generic_type"
  | .typeArguments => "type_arguments"
  | .typeParameters => "type_parameters"
  | .typeParameter => "type_parameter"
  | .defaultType => "default_type"
  | .constraint => "constraint"
  | .predefinedType => "predefined_type"
  | .literalType => "literal_type"
  | .thisType => "this_type"
  | .existentialType => "existential_type"
  | .objectType => "object_type"
  | .propertySignature => "property_signature"
  | .callSignature => "call_signature"
  | .constructSignature => "construct_signature"
  | .indexSignature => "index_signature"
  | .mappedTypeClause => "mapped_type_clause"
  | .arrayType => "array_type"
  | .tupleType => "tuple_type"
  | .optionalType => "optional_type"
  | .restType => "rest_type"
  | .readonlyType => "readonly_type"
  | .lookupType => "lookup_type"
  | .indexTypeQuery => "index_type_query"
  | .typeQuery => "type_query"
  | .unionType => "union_type"
  | .intersectionType => "intersection_type"
  | .conditionalType => "conditional_type"
  | .functionType => "function_type"
  | .constructorType => "constructor_type"
  | .inferType => "infer_type"
  | .parenthesizedType => "parenthesized_type"
  | .flowMaybeType => "flow_maybe_type"
  | .templateLiteralType => "template_literal_type"
  | .templateType => "template_type"
  | .constType => "const"
  | .optionalMark => "?"
  | .stringWord => "string"
  | .numberWord => "number"

/-- Tokens without a name of their own are left out where named children are counted. -/
def isNamed : Kind → Bool
  | .optionalMark | .stringWord | .numberWord => false
  | _ => true

/-- The nodes that open a scope of their own for hooks and for initializers. -/
def isFunction : Kind → Bool
  | .functionDeclaration | .functionExpression | .arrowFunction | .methodDefinition
  | .generatorFunctionDeclaration => true
  | _ => false

end Kind

inductive Role
  | name | value | source | otherName | callee | arguments | object | property | body | key
  | qualifier | openTag
deriving DecidableEq, Repr

end ComponentSurvey.Syntax
