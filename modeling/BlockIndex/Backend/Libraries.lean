import BlockIndex.Backend.Arrays
import BlockIndex.Backend.Database
import BlockIndex.Backend.EnvFile
import BlockIndex.Backend.Go.Parser
import BlockIndex.CommandLine.Program

/-! The libraries of this project, which stand in for those that the program is used with. -/

namespace BlockIndex.Backend

def libraries : CommandLine.Libraries where
  parseGo := Go.parse
  loadEnv := EnvFile.load
  arrays := Arrays.library
  database := Database.library

end BlockIndex.Backend
