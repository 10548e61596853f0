import CloudStore.Model.Backend

/-!
# The client

What `CloudClient::put` sends back for a challenge.
-/

set_option autoImplicit false

namespace CloudStore.Model.CloudClient

open CloudStore.Library (Bytes)

variable {σ : Type} (b : Backend σ)

end CloudStore.Model.CloudClient
