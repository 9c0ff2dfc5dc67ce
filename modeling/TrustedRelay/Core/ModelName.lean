import TrustedRelay.Core.Proxy
import TrustedRelay.Rust.SerdeJson

/-!
# The model of a request

`extract_model_name` reads the body as JSON and takes the member `model`, if it is a string. The
data plane routes by it; in `Proxy.lean` it is a parameter.
-/

namespace TrustedRelay

open SerdeJson

def modelName : Text := "model".toList

/-- The name in the member `model` of the body. -/
def extractModelName (fits : Text → Bool) (body : Bytes) : Option Text :=
  (fromSlice fits body).bind fun v => (get modelName v).bind Json.Value.asString

example : extractModelName (fun _ => true)
    (Text.asBytes "\x7b\"model\": \"a\", \"n\": [1], \"model\": \"\\u0062\"\x7d".toList) =
      some ['b'] := by
  decide +kernel

end TrustedRelay
