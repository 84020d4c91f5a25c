import Yuizaki.Lib.PyStr

/- Providers of language models (`modules/llm/providers.py`): their names, and the base URLs that
   stand for them. -/
namespace Settings

def llmProviderValues : List String :=
  ["deepseek", "qwen", "gemini", "chatgpt", "claude", "grok", "ollama", "lmstudio", "custom"]

def keylessLlmProviders : List String := ["ollama", "lmstudio"]

def defaultProviderBaseUrls : List (String × String) :=
  [("deepseek", "https://api.deepseek.com/v1"),
    ("qwen", "https://dashscope.aliyuncs.com/compatible-mode/v1"),
    ("gemini", "https://generativelanguage.googleapis.com/v1beta"),
    ("chatgpt", "https://api.openai.com/v1"),
    ("claude", "https://api.anthropic.com/v1"),
    ("grok", "https://api.x.ai/v1"),
    ("ollama", "http://localhost:11434/v1"),
    ("lmstudio", "http://localhost:1234/v1"),
    ("custom", "")]

/-- What the host of a base URL says about its provider, in the order of the checks. -/
def providerHosts : List (String × String) :=
  [("deepseek.com", "deepseek"), ("dashscope.aliyuncs.com", "qwen"), ("dashscope-intl.aliyuncs.com", "qwen"),
    ("generativelanguage.googleapis.com", "gemini"), ("api.openai.com", "chatgpt"), ("api.anthropic.com", "claude"),
    ("anthropic.com", "claude"), ("api.x.ai", "grok"), ("x.ai", "grok"), ("localhost:11434", "ollama"),
    ("127.0.0.1:11434", "ollama"), ("[::1]:11434", "ollama"), ("localhost:1234", "lmstudio"),
    ("127.0.0.1:1234", "lmstudio"), ("[::1]:1234", "lmstudio")]

def providerAliases : List (String × String) :=
  [("openai", "chatgpt"), ("chat-gpt", "chatgpt"), ("openai-compatible", "custom"), ("azure", "custom"),
    ("azure-compatible", "custom"), ("ollama", "ollama"), ("anthropic", "claude"), ("xai", "grok"), ("x-ai", "grok"),
    ("dashscope", "qwen"), ("lm-studio", "lmstudio"), ("lm_studio", "lmstudio")]

section Providers

variable (lower : String → String)

/-- `infer_llm_provider`; a blank URL names no host. -/
def inferLlmProvider (baseUrl : String) : String :=
  let normalized := PyStr.lower lower (PyStr.strip baseUrl)
  match providerHosts.find? fun host => PyStr.contains normalized host.1 with
  | some host => host.2
  | none => "custom"

def normalizeLlmProvider (provider baseUrl : String) : String :=
  let value := PyStr.lower lower (PyStr.strip provider)
  let value := (providerAliases.lookup value).getD value
  if value ∈ llmProviderValues then value else inferLlmProvider lower baseUrl

/-- An endpoint without one of the paths that are added to it. -/
def dropSuffix (endpoint suffix : String) : String :=
  if PyStr.endsWithAny (PyStr.lower lower endpoint) [suffix] then
    PyStr.rstripOf "/" (PyStr.textPrefix (endpoint.length - suffix.length) endpoint)
  else endpoint

/-- The paths that are dropped from the end of a base URL, in turn. -/
def endpointSuffixes : List String := ["/messages", "/chat/completions", "/models"]

def normalizeLlmBaseUrl (baseUrl provider : String) : String :=
  let endpoint := PyStr.rstripOf "/" (PyStr.strip baseUrl)
  let provider := normalizeLlmProvider lower provider endpoint
  let endpoint := endpointSuffixes.foldl (dropSuffix lower) endpoint
  if endpoint = "" then (defaultProviderBaseUrls.lookup provider).getD "" else endpoint

end Providers

end Settings
