import HostedRepo.Client.Basic
import HostedRepo.Text.Blank

/-!
# Configuration
-/

namespace HostedRepo

structure Config where
  apiBase : String := Client.publicBase
  userAgent : String := Client.defaultUserAgent
  token : Option String := none
  /-- How many seconds a request may take. No request takes time here, so none runs out of it. -/
  timeout : Option Nat := none
  deriving DecidableEq, Repr

namespace Config

/-- Why a configuration cannot be used. -/
inductive Defect where
  | apiBase (value : String)
  | userAgent
  deriving DecidableEq, Repr

def Defect.message : Defect → String
  | .apiBase value => "Invalid api_base '" ++ value ++ "': must be an http(s) URL"
  | .userAgent => "user_agent cannot be empty"

/-- Checks that the root is an address of the web and the user agent is not blank. -/
def validate (c : Config) : Except Defect Unit :=
  let starts (s : String) : Bool := s.toList.isPrefixOf c.apiBase.toList
  if !(starts "https://" || starts "http://") then .error (.apiBase c.apiBase)
  else if Text.allBlank c.userAgent then .error .userAgent
  else .ok ()

/-- What a client is made from. -/
def settings (c : Config) : Client.Settings :=
  { apiBase := some c.apiBase, token := c.token, userAgent := some c.userAgent }

end Config
end HostedRepo
