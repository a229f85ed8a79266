import HealthWatch.Yaml.Legible

/-!
# Endpoints files

A YAML document with a list of endpoints under one key. Without the key there are none, and other
keys do not count.
-/

set_option autoImplicit false

namespace HealthWatch.EndpointsFile

/-- Reads the one field of an endpoints file. -/
def read {ν : Type} [Legible ν] (v : ν) : Decoded (List Endpoint) :=
  Decode.record ⟨"EndpointsFile", ["endpoints"], []⟩
    (fun _ _ v => Decode.list Decode.endpoint v) [] v

/-- The endpoints listed in the text of an endpoints file, if it is one. -/
def read? (text : String) : Option (List Endpoint) :=
  Yaml.decode? read text

end HealthWatch.EndpointsFile
