/-! Why a text is no usable regular expression. -/
namespace SkillAudit.Regex

inductive SyntaxError where
  | unclosedGroup
  | unopenedGroup
  | unclosedClass
  | invalidRange
  | invalidClassItem
  | missingOperand
  | invalidCount
  | unclosedCount
  | invalidEscape
  | backreference
  | lookAround
  | invalidFlags
  | invalidGroupName
  | duplicateGroupName
  | unknownProperty
  | invalidUtf8
  | notAllowedWithoutUnicode
  | nestedTooDeep
  deriving DecidableEq, Repr

def SyntaxError.message : SyntaxError → String
  | .unclosedGroup => "unclosed group"
  | .unopenedGroup => "unopened group"
  | .unclosedClass => "unclosed character class"
  | .invalidRange => "invalid character class range, the start must be <= the end"
  | .invalidClassItem => "invalid item in a character class"
  | .missingOperand => "repetition operator missing expression"
  | .invalidCount => "invalid repetition count"
  | .unclosedCount => "unclosed counted repetition"
  | .invalidEscape => "unrecognized escape sequence"
  | .backreference => "backreferences are not supported"
  | .lookAround => "look-around, including look-ahead and look-behind, is not supported"
  | .invalidFlags => "invalid flags"
  | .invalidGroupName => "invalid capture group name"
  | .duplicateGroupName => "duplicate capture group name"
  | .unknownProperty => "Unicode property not found"
  | .invalidUtf8 => "pattern can match invalid UTF-8"
  | .notAllowedWithoutUnicode => "Unicode not allowed here"
  | .nestedTooDeep => "exceeded the maximum number of nested parentheses/brackets"

inductive Error where
  | parse (cause : SyntaxError)
  | tooLarge (limit : Nat)
  deriving DecidableEq, Repr

def Error.message : Error → String
  | .parse cause => "regex parse error: " ++ cause.message
  | .tooLarge limit => "Compiled regex exceeds size limit of " ++ toString limit ++ " bytes."

end SkillAudit.Regex
