import SkillAudit.Behaviour.Language
import SkillAudit.Regex.Search
import SkillAudit.Severity

/-! The signs of behaviours that matter once a script runs. -/
namespace SkillAudit.Behaviour

structure LineSpec where
  kind : String
  severity : Severity
  languages : List Language
  pattern : String
  description : String

/-- Two signs that are grave when one file has both. -/
structure PairSpec where
  kind : String
  severity : Severity
  languages : List Language
  first : String
  second : String
  description : String

def lineSpecs : List LineSpec := [
  { kind := "dynamic-import"
    severity := .high
    languages := [.javascript]
    pattern := "\\b(?:require|import)\\s*\\(\\s*(?:[A-Za-z_$][\\w$.]*\\s*[,)+]|`[^`]*\\$\\\x7b)"
    description := "module loaded from a computed specifier" },
  { kind := "dynamic-import"
    severity := .high
    languages := [.python]
    pattern := "(?:__import__|importlib\\.import_module)\\s*\\(\\s*[A-Za-z_]"
    description := "module loaded from a computed name" },
  { kind := "runtime-install"
    severity := .high
    languages := Language.all
    pattern :=
      "\\b(?:npm|pnpm|yarn|bun)\\s+(?:i|install|add)\\b|\\bpip3?\\s+install\\b|\\bnpx\\s+-y\\b"
    description := "installs packages while running" },
  { kind := "time-bomb"
    severity := .high
    languages := [.javascript]
    pattern :=
      "new\\s+Date\\(\\)\\s*[<>]=?\\s*new\\s+Date\\(|Date\\.now\\(\\)\\s*[<>]=?\\s*\\d\x7b12," ++
      "\x7d|getFullYear\\(\\)\\s*(?:[<>]=?|===?)\\s*20\\d\\d|\\b(?:runCount|invocations|launch" ++
      "Count|callCount)\\s*(?:[<>]=?|===?)\\s*\\d\x7b2,\x7d"
    description := "activation gated on a date or usage counter" },
  { kind := "time-bomb"
    severity := .high
    languages := [.python]
    pattern :=
      "(?:datetime\\.(?:now|today|utcnow)\\(\\)|date\\.today\\(\\))\\s*[<>]=?\\s*(?:datetime|d" ++
      "ate)\\(|time\\.time\\(\\)\\s*[<>]=?\\s*\\d\x7b9,\x7d"
    description := "activation gated on a date" },
  { kind := "sandbox-detection"
    severity := .high
    languages := Language.all
    pattern :=
      "/proc/1/cgroup|/\\.dockerenv|\\bsystemd-detect-virt\\b|\\bVBoxService\\b|process\\.env" ++
      "\\.(?:CI|GITHUB_ACTIONS|GITLAB_CI|JENKINS_URL|BUILDKITE|CIRCLECI|TRAVIS)\\b|os\\.enviro" ++
      "n(?:\\.get)?[\\[(]\\s*['\"](?:CI|GITHUB_ACTIONS|GITLAB_CI)['\"]|\\$\\\x7b?(?:CI|GITHUB_" ++
      "ACTIONS)\\\x7d?\\s*(?:=|!)="
    description := "checks for a container, VM or CI environment" },
  { kind := "self-modification"
    severity := .critical
    languages := [.javascript]
    pattern :=
      "\\b(?:writeFile|writeFileSync|appendFile|appendFileSync|createWriteStream)\\s*\\([^)\\n" ++
      "]*(?:__filename|__dirname|import\\.meta\\.url|package\\.json|SKILL\\.md|\\.claude|\\.op" ++
      "enclaw|\\.cursor|\\.config/)"
    description := "writes to its own files or the host configuration" },
  { kind := "self-modification"
    severity := .critical
    languages := [.python]
    pattern :=
      "open\\(\\s*(?:__file__|[^)\\n]*(?:SKILL\\.md|\\.claude|\\.openclaw|\\.config/))[^)\\n]*" ++
      ",\\s*['\"][wa]"
    description := "writes to its own files or the host configuration" },
  { kind := "websocket-channel"
    severity := .medium
    languages := [.javascript]
    pattern := "new\\s+WebSocket\\s*\\(\\s*['\"`]wss?://"
    description := "opens a persistent WebSocket channel" },
  { kind := "dns-channel"
    severity := .high
    languages := [.javascript]
    pattern := "dns\\.(?:resolve\\w*|lookup)\\s*\\(\\s*(?:`[^`]*\\$\\\x7b|[\\w$.]+\\s*\\+)"
    description := "encodes data into DNS lookups" },
  { kind := "dns-channel"
    severity := .high
    languages := [.python]
    pattern := "socket\\.gethostbyname\\s*\\(\\s*(?:f['\\x22]|[\\w.]+\\s*\\+)"
    description := "encodes data into DNS lookups" },
  { kind := "remote-shell"
    severity := .critical
    languages := Language.all
    pattern :=
      "(?:curl|wget)\\s[^|\\n]*\\|\\s*(?:sudo\\s+)?(?:ba|z|da)?sh\\b|\\beval\\s+\"?\\$\\(\\s*(" ++
      "?:curl|wget)\\b"
    description := "downloads and runs a remote script" },
  { kind := "unsafe-deserialization"
    severity := .high
    languages := [.python]
    pattern := "\\b(?:pickle|cPickle|dill|marshal)\\.loads?\\s*\\("
    description := "deserializes data that can execute code" },
  { kind := "remote-eval"
    severity := .critical
    languages := [.python]
    pattern :=
      "(?:^|[^.\\w])(?:exec|eval)\\s*\\(\\s*(?:requests\\.|urllib|urlopen|base64\\.|[\\w.]+\\." ++
      "(?:text|content)\\b)"
    description := "executes code fetched or decoded at runtime" }]

def networkJavascript : String :=
  "\\bfetch\\s*\\(|\\baxios\\b|\\bhttps?\\.(?:get|request)\\s*\\(|XMLHttpRequest|(?:require\\(" ++
  "\\s*|from\\s+)['\"](?:node-fetch|undici|got)['\"]"

def networkPython : String :=
  "\\b(?:requests\\.(?:get|post)|urllib\\.request|urlopen|http\\.client|socket\\.socket)\\b"

def pairSpecs : List PairSpec := [
  { kind := "remote-eval"
    severity := .critical
    languages := [.javascript]
    first := networkJavascript
    second := "(?:^|[^.\\w$])eval\\s*\\(|new\\s+Function\\s*\\(|\\bvm\\.runIn\\w+\\s*\\("
    description := "fetches content and evaluates code in the same file" },
  { kind := "write-then-require"
    severity := .critical
    languages := [.javascript]
    first := "\\b(?:writeFile|writeFileSync|createWriteStream)\\s*\\([^\\n]*\\.(?:c|m)?js\\b"
    second := "\\b(?:require|import)\\s*\\("
    description := "writes a script file and loads modules at runtime" },
  { kind := "beaconing"
    severity := .high
    languages := [.javascript]
    first := "\\bsetInterval\\s*\\("
    second := networkJavascript
    description := "makes network calls on a timer" },
  { kind := "network-exec"
    severity := .critical
    languages := [.python]
    first := networkPython
    second :=
      "(?:^|[^.\\w])(?:exec|eval)\\s*\\(|\\bpickle\\.loads?\\s*\\(|\\bmarshal\\.loads\\s*\\("
    description := "executes or deserializes data from the network" }]

def lineSigns : List (LineSpec × Regex) :=
  lineSpecs.filterMap fun s => (Regex.compile {} s.pattern).toOption.map (s, ·)

def pairSigns : List (PairSpec × Regex × Regex) :=
  pairSpecs.filterMap fun s => do
    let first ← (Regex.compile {} s.first).toOption
    let second ← (Regex.compile {} s.second).toOption
    return (s, first, second)

end SkillAudit.Behaviour
