import MarkupTemplate.CommandLine.Arguments

/-!
# Help on the command line
-/

namespace MarkupTemplate.CommandLine

/-- The options of every command, one line or more each. -/
def sharedOptions : List String := [
  "      --dependency <NAME>  Function library made available to host expressions (repeatable)",
  "      --import-root <DIR>  Directory imports are resolved against [default: the template's",
  "                           directory]",
  "      --text               Treat the template as plain text"]

/-- The option for help, behind its name. -/
def helpOption (gap : String) : String := "  -h, --help" ++ gap ++ "Print help"

/-- The lines of a help text. -/
def helpLines : HelpTopic → List String
  | .overview => [
    "Compile and render TAL/METAL templates", "",
    "Usage: talc <COMMAND>", "",
    "Commands:",
    "  render  Render a template to stdout",
    "  key     Print the cache key of a template",
    "  help    Print this message or the help of the given subcommand(s)", "",
    "Options:", helpOption "  "]
  | .command .render => [
    "Render a template to stdout", "",
    "Usage: talc render [OPTIONS] <TEMPLATE>", "",
    "Arguments:",
    "  <TEMPLATE>  Template file", "",
    "Options:"] ++ sharedOptions ++ [
    "      --globals <FILE>     JSON object whose members become globals",
    "      --cache-dir <DIR>    Directory for compiled programs",
    "      --pattern <PATTERN>  File name pattern for compiled programs; must contain " ++
      keyPlaceholder ++ " [default:",
    "                           " ++ defaultPattern ++ "]",
    helpOption "               "]
  | .command .key => [
    "Print the cache key of a template", "",
    "Usage: talc key [OPTIONS] <TEMPLATE>", "",
    "Arguments:",
    "  <TEMPLATE>  Template file", "",
    "Options:"] ++ sharedOptions ++ [helpOption "               "]
  | .help => [
    "Print this message or the help of the given subcommand(s)", "",
    "Usage: talc help [COMMAND]...", "",
    "Arguments:",
    "  [COMMAND]...  Print help for the subcommand(s)"]

/-- The text that help prints. -/
def helpText (topic : HelpTopic) : String :=
  String.join ((helpLines topic).map (· ++ "\n"))

end MarkupTemplate.CommandLine
