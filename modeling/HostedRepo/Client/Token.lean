/-!
# Tokens

A token is a secret text: it goes into one header and is never shown.
-/

namespace HostedRepo

structure Token where
  text : String
  deriving DecidableEq

namespace Token

/-- The header value that carries the token. -/
def headerValue (t : Token) : String := "Bearer " ++ t.text

/-- The token as messages may show it. -/
def shown (_ : Token) : String := "GitHubAuth \x7b token: \"<redacted>\" \x7d"

end Token
end HostedRepo
