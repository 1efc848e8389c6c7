import RiscvSim.Library.IfStream
import RiscvSim.Source.Cache

/-! `parseArgs` of the cycle simulator: the command line, and the eight numbers of the cache
configuration file, each on a line of its own.
-/

namespace RiscvSim

/-- The file that is parsed, and the number of the line reached. -/
structure ConfigReader where
  file : IfStream
  line : ℕ

/-- Either the next number and the rest of the file, or the message of the exception. -/
def parseNextLine (name : String) : StateT ConfigReader (Except String) (BitVec 32) :=
  fun reader =>
    let line := reader.line + 1
    match reader.file.extractDec 32 with
    | (some value, file) => .ok (value, { file := file.getline, line := line })
    | (none, _) =>
        .error ("Failed to parse property at line " ++ toString line ++ " for property " ++ name)

/-- The numbers are stored as `uint64_t`. -/
def CacheConfig.ofWords (cacheSize blockSize ways missLatency : BitVec 32) : CacheConfig where
  cacheSize := cacheSize.setWidth 64
  blockSize := blockSize.setWidth 64
  ways := ways.setWidth 64
  missLatency := missLatency.setWidth 64

/-- The initializer of `icConfig` or `dcConfig`. -/
def parseConfig (cache : String) : StateT ConfigReader (Except String) CacheConfig := do
  let cacheSize ← parseNextLine (cache ++ " cache size")
  let blockSize ← parseNextLine (cache ++ " block size")
  let ways ← parseNextLine (cache ++ " ways")
  let missLatency ← parseNextLine (cache ++ " miss latency")
  return .ofWords cacheSize blockSize ways missLatency

def parseConfigs : StateT ConfigReader (Except String) (CacheConfig × CacheConfig) := do
  let icConfig ← parseConfig "ICache"
  let dcConfig ← parseConfig "DCache"
  return (icConfig, dcConfig)

/-- `LOG_ERROR` on a line of `sim_cycle.cpp`. -/
def logError (line : ℕ) : String := "[ERROR] (src/sim_cycle.cpp:" ++ toString line ++ "): "

/-- What the program makes of its command line and of the files, by name: the input file and
the two configurations, or the text it ends with on `std::cerr`. The handler of `out_of_range`
is left out, since nothing throws it.
-/
def parseArgs (argv : List String) (files : String → Option (List Char))
    : Except String (String × CacheConfig × CacheConfig) :=
  match argv with
  | [_, inputFile, cacheFile] =>
      match files cacheFile with
      | none => .error (logError 36 ++ "Failed to open cache config file: " ++ cacheFile ++ "\n")
      | some text =>
          match parseConfigs { file := .opened (some text), line := 0 } with
          | .ok ((icConfig, dcConfig), _) => .ok (inputFile, icConfig, dcConfig)
          | .error what => .error (logError 68 ++ what ++ "\n")
  | _ =>
      .error (logError 20 ++ "Usage: " ++ argv.headD "" ++ " <file.bin> <cache_config.txt>\n"
        ++ "Note:\n"
        ++ "The sim_cycle binary should take two command-line arguments indicating the "
        ++ "name of the binary file to be read and the cache configuration file to be "
        ++ "used. [See detail in project description document].\n")

end RiscvSim
