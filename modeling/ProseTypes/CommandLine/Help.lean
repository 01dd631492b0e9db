/-!
# Help

The texts that tell how the program is used.
-/

namespace ProseTypes.CommandLine

def usage : String :=
  "Usage: prosetypes [OPTIONS] [FILES]..."

def help : String :=
  "Compile prose API documentation into typed declarations\n\n" ++ usage ++ "\n\n" ++
  "Arguments:\n" ++
  "  [FILES]...  Input files, directories or patterns; standard input if there are none\n\n" ++
  "Options:\n" ++
  "  -o, --output <DIR>            Output directory (required when files are given)\n" ++
  "  -f, --format <FORMAT>         typescript (default, alias ts) or json\n" ++
  "  -r, --root <DIR>              Source root that is left out of document paths\n" ++
  "      --stdin-path <PATH>       Document path of standard input (stdin.md)\n" ++
  "      --requests <FILE>         Write the request manifest to a file\n" ++
  "      --linked-only             Only register structures that requests lead to\n" ++
  "      --nesting-threshold <N>   Heading level above which slugs go into anchors (1)\n" ++
  "  -v, --verbose                 Show debug notes\n" ++
  "  -h, --help                    Print help\n"

end ProseTypes.CommandLine
