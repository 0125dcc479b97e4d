import ContextRoles.Yaml.Value

/-! # The format -/

namespace ContextRoles

/-- How YAML is read and written, which is a matter of the library for it and a parameter here. A text is
read as a value or is no YAML, unless a scalar in it makes no sense. -/
class YamlFormat where
  read : String → Except Yaml.ReadError Yaml
  render : Yaml → String

end ContextRoles
