import SkillAudit.Rule.Spec

/-! The rules that come with the program. -/
namespace SkillAudit.Rule

def builtinVersion : String := "2026.10.1"

/-- Rules on code execution, credentials, network use, obfuscation, persistence, destruction, mining
and manipulation of agents. -/
def builtinSpecs : List Spec := [
  { id := "exec-eval"
    title := "eval() call"
    category := "code-execution"
    severity := .high
    weight := 15
    pattern := "(?:^|[^.\\w$])eval\\s*\\("
    ignoreCase := false
    extensions := ["js", "mjs", "cjs", "ts", "mts", "cts", "jsx", "tsx", "py"] },
  { id := "exec-function-constructor"
    title := "new Function() constructor"
    category := "code-execution"
    severity := .high
    weight := 15
    pattern := "new\\s+Function\\s*\\("
    ignoreCase := false
    extensions := [] },
  { id := "exec-child-process"
    title := "child_process module"
    category := "code-execution"
    severity := .high
    weight := 15
    pattern := "(?:require\\(\\s*|from\\s+)['\"](?:node:)?child_process['\"]"
    ignoreCase := false
    extensions := [] },
  { id := "exec-shell-sync"
    title := "Synchronous shell execution"
    category := "code-execution"
    severity := .medium
    weight := 8
    pattern := "\\b(?:execSync|spawnSync|execFileSync)\\s*\\("
    ignoreCase := false
    extensions := [] },
  { id := "exec-vm-module"
    title := "vm module code evaluation"
    category := "code-execution"
    severity := .high
    weight := 15
    pattern := "\\bvm\\.(?:runInNewContext|runInThisContext|runInContext|Script)\\b"
    ignoreCase := false
    extensions := [] },
  { id := "exec-python-system"
    title := "os.system / subprocess invocation"
    category := "code-execution"
    severity := .high
    weight := 15
    pattern := "\\b(?:os\\.system|os\\.popen|subprocess\\.(?:run|call|Popen|check_output))\\s*\\("
    ignoreCase := false
    extensions := ["py"] },
  { id := "exec-python-exec"
    title := "Python exec() of dynamic code"
    category := "code-execution"
    severity := .high
    weight := 15
    pattern := "(?:^|[^.\\w])exec\\s*\\(\\s*(?:compile\\(|base64|requests|urllib|[a-z_]+\\.(?:te" ++
      "xt|content|read\\(\\)))"
    ignoreCase := false
    extensions := ["py"] },
  { id := "exec-pipe-to-shell"
    title := "Remote script piped into a shell"
    category := "code-execution"
    severity := .critical
    weight := 35
    pattern := "(?:curl|wget)\\s[^|\\n]*\\|\\s*(?:sudo\\s+)?(?:ba|z|da)?sh\\b"
    ignoreCase := false
    extensions := [] },
  { id := "cred-ssh-keys"
    title := "SSH private key access"
    category := "credentials"
    severity := .critical
    weight := 30
    pattern := "\\.ssh/(?:id_rsa|id_ed25519|id_ecdsa|id_dsa)\\b"
    ignoreCase := false
    extensions := [] },
  { id := "cred-cloud-config"
    title := "Cloud or registry credential file access"
    category := "credentials"
    severity := .critical
    weight := 30
    pattern := "\\.aws/credentials|\\.npmrc|\\.netrc|\\.docker/config\\.json|\\.kube/config|gclo" ++
      "ud/credentials|\\.pypirc"
    ignoreCase := false
    extensions := [] },
  { id := "cred-env-secret"
    title := "Secret read from environment"
    category := "credentials"
    severity := .medium
    weight := 8
    pattern := "process\\.env(?:\\.|\\[['\"])[A-Z0-9_]*(?:KEY|TOKEN|SECRET|PASSWORD|PASSWD|CREDE" ++
      "NTIAL|AUTH)[A-Z0-9_]*"
    ignoreCase := false
    extensions := [] },
  { id := "cred-python-env-secret"
    title := "Secret read from environment (Python)"
    category := "credentials"
    severity := .medium
    weight := 8
    pattern := "os\\.(?:environ(?:\\.get)?[\\[(]|getenv\\()\\s*['\"][A-Z0-9_]*(?:KEY|TOKEN|SECRE" ++
      "T|PASSWORD|CREDENTIAL)[A-Z0-9_]*"
    ignoreCase := false
    extensions := ["py"] },
  { id := "cred-wallet"
    title := "Crypto wallet or seed phrase access"
    category := "credentials"
    severity := .critical
    weight := 30
    pattern := "wallet\\.dat|keystore/UTC--|seed[_ ]?phrase|mnemonic\\s*[:=]|\\.solana/id\\.json" ++
      "|\\.ethereum/keystore"
    ignoreCase := true
    extensions := [] },
  { id := "cred-browser-store"
    title := "Browser credential store access"
    category := "credentials"
    severity := .critical
    weight := 30
    pattern := "Login Data|Cookies\\.sqlite|logins\\.json|Local State|key4\\.db"
    ignoreCase := false
    extensions := [] },
  { id := "cred-keychain"
    title := "OS keychain access"
    category := "credentials"
    severity := .high
    weight := 20
    pattern := "\\b(?:keytar|security\\s+find-(?:generic|internet)-password|secret-tool\\s+looku" ++
      "p)\\b"
    ignoreCase := false
    extensions := [] },
  { id := "cred-dotenv-read"
    title := "Reads .env file directly"
    category := "credentials"
    severity := .medium
    weight := 8
    pattern := "read(?:File(?:Sync)?|_text)?\\s*\\(\\s*[^)]*['\"][^'\"]*\\.env['\"]"
    ignoreCase := false
    extensions := [] },
  { id := "net-raw-ip"
    title := "Request to a raw IP address"
    category := "network"
    severity := .high
    weight := 15
    pattern := "https?://(?:\\d\x7b1,3\x7d\\.)\x7b3\x7d\\d\x7b1,3\x7d(?::\\d+)?"
    ignoreCase := false
    extensions := [] },
  { id := "net-webhook"
    title := "Chat webhook endpoint"
    category := "exfiltration"
    severity := .high
    weight := 20
    pattern := "discord(?:app)?\\.com/api/webhooks|hooks\\.slack\\.com/services|api\\.telegram\\" ++
      ".org/bot"
    ignoreCase := false
    extensions := [] },
  { id := "net-paste-tunnel"
    title := "Paste site or tunnel endpoint"
    category := "exfiltration"
    severity := .high
    weight := 15
    pattern := "pastebin\\.com|paste\\.ee|hastebin|transfer\\.sh|ngrok\\.io|ngrok-free\\.app|try" ++
      "cloudflare\\.com|requestbin|webhook\\.site|interact\\.sh|burpcollaborator"
    ignoreCase := true
    extensions := [] },
  { id := "net-reverse-shell"
    title := "Reverse shell idiom"
    category := "network"
    severity := .critical
    weight := 40
    pattern := "/dev/tcp/\\d|\\bnc\\s+(?:-\\w+\\s+)*-e\\s|\\bncat\\s.*--exec|bash\\s+-i\\s+>&|so" ++
      "cat\\s+exec:"
    ignoreCase := false
    extensions := [] },
  { id := "net-env-dump"
    title := "Entire environment serialized"
    category := "exfiltration"
    severity := .high
    weight := 20
    pattern := "JSON\\.stringify\\(\\s*process\\.env\\s*\\)|json\\.dumps\\(\\s*(?:dict\\()?os\\." ++
      "environ"
    ignoreCase := false
    extensions := [] },
  { id := "obf-long-base64"
    title := "Long base64 literal"
    category := "obfuscation"
    severity := .medium
    weight := 8
    pattern := "['\"][A-Za-z0-9+/]\x7b200,\x7d=\x7b0,2\x7d['\"]"
    ignoreCase := false
    extensions := [] },
  { id := "obf-hex-escapes"
    title := "Dense hex escape sequence"
    category := "obfuscation"
    severity := .medium
    weight := 8
    pattern := "(?:\\\\x[0-9a-fA-F]\x7b2\x7d)\x7b16,\x7d"
    ignoreCase := false
    extensions := [] },
  { id := "obf-charcode"
    title := "String built from char codes"
    category := "obfuscation"
    severity := .medium
    weight := 8
    pattern := "String\\.fromCharCode\\s*\\(\\s*(?:\\d+\\s*,\\s*)\x7b8,\x7d"
    ignoreCase := false
    extensions := [] },
  { id := "obf-decode-exec"
    title := "Decoded payload executed"
    category := "obfuscation"
    severity := .critical
    weight := 30
    pattern := "(?:eval|exec|Function)\\s*\\(\\s*(?:atob|Buffer\\.from|base64\\.b64decode|bytes" ++
      "\\.fromhex)\\s*\\("
    ignoreCase := false
    extensions := [] },
  { id := "persist-shell-profile"
    title := "Writes to shell profile"
    category := "persistence"
    severity := .high
    weight := 20
    pattern := "\\.(?:bashrc|zshrc|bash_profile|profile|zprofile)\\b"
    ignoreCase := false
    extensions := [] },
  { id := "persist-scheduler"
    title := "Installs a scheduled task"
    category := "persistence"
    severity := .high
    weight := 15
    pattern := "\\bcrontab\\s+-|LaunchAgents/|LaunchDaemons/|systemctl\\s+(?:--user\\s+)?enable|" ++
      "schtasks\\s+/create"
    ignoreCase := true
    extensions := [] },
  { id := "destructive-rm"
    title := "Recursive forced delete"
    category := "destructive"
    severity := .high
    weight := 20
    pattern := "\\brm\\s+-(?:rf|fr)\\s+(?:/|~|\\$HOME)"
    ignoreCase := false
    extensions := [] },
  { id := "destructive-chmod"
    title := "World-writable permissions"
    category := "destructive"
    severity := .medium
    weight := 8
    pattern := "\\bchmod\\s+(?:-R\\s+)?777\\b"
    ignoreCase := false
    extensions := [] },
  { id := "mining-stratum"
    title := "Crypto mining pool"
    category := "mining"
    severity := .critical
    weight := 40
    pattern := "stratum\\+(?:tcp|ssl)://|\\bxmrig\\b|\\bcryptonight\\b|coinhive"
    ignoreCase := true
    extensions := [] },
  { id := "agent-prompt-override"
    title := "Instruction override in skill text"
    category := "prompt-injection"
    severity := .high
    weight := 20
    pattern := "ignore\\s+(?:all\\s+)?(?:previous|prior|above)\\s+instructions|disregard\\s+(?:y" ++
      "our|the)\\s+(?:system|previous)\\s+prompt"
    ignoreCase := true
    extensions := [] },
  { id := "agent-conceal"
    title := "Asks the agent to hide actions from the user"
    category := "prompt-injection"
    severity := .high
    weight := 20
    pattern := "(?:do\\s+not|don't|never)\\s+(?:tell|inform|mention\\s+(?:this\\s+)?to|show)\\s+" ++
      "the\\s+user"
    ignoreCase := true
    extensions := [] },
  { id := "agent-auto-approve"
    title := "Disables confirmation or safety prompts"
    category := "prompt-injection"
    severity := .medium
    weight := 10
    pattern := "--dangerously-skip-permissions|--no-confirm|auto[_-]?approve\\s*[:=]\\s*true|--y" ++
      "olo\\b"
    ignoreCase := true
    extensions := [] }]

end SkillAudit.Rule
