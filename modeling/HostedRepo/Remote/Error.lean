import HostedRepo.BlobUrl
import HostedRepo.Http.Fault
import HostedRepo.Http.Status
import HostedRepo.Url.Host

/-!
# Errors of repository operations
-/

namespace HostedRepo

inductive RemoteError where
  | blobStart (expected : String)
  | blobForm (pattern : String)
  | notFound (resource : String)
  | refused (status : Http.Status) (message : String)
  | archive (status : Http.Status)
  | invalidPath (path reason : String)
  | unexpected (message : String)
  | transport (fault : Http.Fault)
  | url (fault : Url.Fault)
  deriving DecidableEq, Repr

namespace RemoteError

def message : RemoteError → String
  | .blobStart expected =>
    "URL format is incorrect; it does not have the expected prefix: " ++ expected
  | .blobForm pattern =>
    "URL format is incorrect; unable to parse the GitHub URL with pattern " ++ pattern
  | .notFound resource => "not found: " ++ resource
  | .refused status message =>
    "GitHub API request failed (" ++ status.text ++ "): " ++ message
  | .archive status => "failed to fetch archive: " ++ status.text
  | .invalidPath path reason => "invalid repository path " ++ Text.quote path ++ ": " ++ reason
  | .unexpected message => "unexpected response: " ++ message
  | .transport fault => "HTTP error: " ++ fault.message
  | .url fault => "invalid URL: " ++ fault.message

/-- The messages below the first one. -/
def causes : RemoteError → List String
  | .transport fault => fault.message :: fault.causes
  | .url fault => [fault.message]
  | _ => []

/-- Whether the error says that the remote resource does not exist. -/
def isNotFound : RemoteError → Bool
  | .notFound _ => true
  | _ => false

/-- The error of a text that is not a blob address. -/
def ofBlobFault : BlobUrl.Fault → RemoteError
  | .wrongStart => .blobStart BlobUrl.start
  | .wrongForm => .blobForm BlobUrl.pattern

end RemoteError
end HostedRepo
