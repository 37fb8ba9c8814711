/-
The templates that come with the library: for each target one of the whole
program and one for each type of node.
-/
import FlowScript.Target.Basic

namespace FlowScript

namespace Template

namespace Embedded

/-- Lines, each with its end. -/
def lines (l : List String) : String := String.ofList (l.flatMap fun s => s.toList ++ ['\n'])

def desktopExperiment : String := lines
  ["#!/usr/bin/env python",
    "# -*- coding: utf-8 -*-",
    "\"\"\"",
    "Experiment script generated by stimflow.",
    "",
    "Requires a PsychoPy installation: python <this file>",
    "\"\"\"",
    "",
    "from psychopy import core, data, gui, logging, visual",
    "from psychopy.hardware import keyboard",
    "",
    "expName = {expName}",
    "expInfo = \x7b\x7b'participant': '', 'session': '001'\x7d\x7d",
    "dlg = gui.DlgFromDict(dictionary=expInfo, sortKeys=False, title=expName)",
    "if not dlg.OK:",
    "    core.quit()",
    "",
    "thisExp = data.ExperimentHandler(name=expName, extraInfo=expInfo, dataFileName='data/' + expName)",
    "logging.console.setLevel(logging.WARNING)",
    "",
    "win = visual.Window(size=[1024, 768], fullscr=False, units='height', color=[0, 0, 0])",
    "defaultKeyboard = keyboard.Keyboard()",
    "globalClock = core.Clock()",
    "",
    "# --- Components ---",
    "{components}",
    "",
    "# --- End experiment ---",
    "thisExp.saveAsWideText('data/' + expName + '.csv')",
    "thisExp.abort()",
    "win.close()",
    "core.quit()"]

def desktopText : String := lines
  ["# Node: {display_label} ({node_type})",
    "{label} = visual.TextStim(",
    "    win=win, name={name}, text={text},",
    "    pos=({x}, {y}), height={height}, color={color},",
    ")",
    "{label}.draw()",
    "win.flip()",
    "thisExp.addData({name} + '.started', globalClock.getTime())",
    "core.wait({duration})"]

def desktopImage : String := lines
  ["# Node: {display_label} ({node_type})",
    "{label} = visual.ImageStim(",
    "    win=win, name={name}, image={image},",
    "    pos=({x}, {y}), size={size},",
    ")",
    "{label}.draw()",
    "win.flip()",
    "thisExp.addData({name} + '.started', globalClock.getTime())",
    "core.wait({duration})"]

def desktopKeyboard : String := lines
  ["# Node: {display_label} ({node_type})",
    "{label} = keyboard.Keyboard()",
    "{label}.clearEvents()",
    "{label}_keys = {label}.waitKeys(maxWait={max_wait}, keyList={allowed_keys}, waitRelease=False)",
    "if {label}_keys:",
    "    thisExp.addData({name} + '.keys', {label}_keys[-1].name)",
    "    thisExp.addData({name} + '.rt', {label}_keys[-1].rt)",
    "    if {store_correct}:",
    "        thisExp.addData({name} + '.corr', int({label}_keys[-1].name == {correct_answer}))",
    "thisExp.nextEntry()"]

def desktopGpio : String := lines
  ["# Node: {display_label} ({node_type})",
    "from gpiozero import DigitalOutputDevice",
    "{label} = DigitalOutputDevice({pin}, initial_value={state})",
    "thisExp.addData({name} + '.pin', {pin})",
    "thisExp.addData({name} + '.state', {state})",
    "if {duration} > 0:",
    "    core.wait({duration})",
    "    {label}.value = not {label}.value"]

def browserExperiment : String := lines
  ["/**",
    " * Experiment script generated by stimflow.",
    " *",
    " * Serve this module next to the PsychoJS library build.",
    " */",
    "",
    "import \x7b\x7b core, util, visual, hardware \x7d\x7d from './lib/psychojs-2024.2.4.js';",
    "const \x7b\x7b PsychoJS \x7d\x7d = core;",
    "",
    "const expName = {expName};",
    "const expInfo = \x7b\x7b participant: '', session: '001' \x7d\x7d;",
    "",
    "const psychoJS = new PsychoJS(\x7b\x7b debug: false \x7d\x7d);",
    "psychoJS.openWindow(\x7b\x7b",
    "  fullscr: true,",
    "  color: new util.Color([0, 0, 0]),",
    "  units: 'height',",
    "  waitBlanking: true,",
    "\x7d\x7d);",
    "",
    "const globalClock = new util.Clock();",
    "const sleep = (seconds) => new Promise((resolve) => setTimeout(resolve, seconds * 1000));",
    "",
    "async function runExperiment() \x7b\x7b",
    "  const win = psychoJS.window;",
    "  const thisExp = psychoJS.experiment;",
    "",
    "// --- Components ---",
    "{components}",
    "",
    "  // --- End experiment ---",
    "  psychoJS.quit(\x7b\x7b message: 'Thank you for your patience.', isCompleted: true \x7d\x7d);",
    "\x7d\x7d",
    "",
    "psychoJS.start(\x7b\x7b expName, expInfo \x7d\x7d);",
    "runExperiment();"]

def browserText : String := lines
  ["// Node: {display_label} ({node_type})",
    "const {label} = new visual.TextStim(\x7b\x7b",
    "  win, name: {name}, text: {text},",
    "  pos: [{x}, {y}], height: {height}, color: new util.Color({color}),",
    "\x7d\x7d);",
    "{label}.setAutoDraw(true);",
    "thisExp.addData({name} + '.started', globalClock.getTime());",
    "await sleep({duration});",
    "{label}.setAutoDraw(false);"]

def browserImage : String := lines
  ["// Node: {display_label} ({node_type})",
    "const {label} = new visual.ImageStim(\x7b\x7b",
    "  win, name: {name}, image: {image},",
    "  pos: [{x}, {y}], size: {size},",
    "\x7d\x7d);",
    "{label}.setAutoDraw(true);",
    "thisExp.addData({name} + '.started', globalClock.getTime());",
    "await sleep({duration});",
    "{label}.setAutoDraw(false);"]

def browserKeyboard : String := lines
  ["// Node: {display_label} ({node_type})",
    "const {label} = new hardware.Keyboard(\x7b\x7b psychoJS, clock: new util.Clock(), waitForStart: false \x7d\x7d);",
    "{label}.clearEvents();",
    "const {label}_keys = await (async () => \x7b\x7b",
    "  const started = globalClock.getTime();",
    "  while (globalClock.getTime() - started < {max_wait}) \x7b\x7b",
    "    const keys = {label}.getKeys(\x7b\x7b keyList: {allowed_keys}, waitRelease: false \x7d\x7d);",
    "    if (keys.length > 0) \x7b\x7b",
    "      return keys;",
    "    \x7d\x7d",
    "    await sleep(0.01);",
    "  \x7d\x7d",
    "  return [];",
    "\x7d\x7d)();",
    "if ({label}_keys.length > 0) \x7b\x7b",
    "  thisExp.addData({name} + '.keys', {label}_keys[{label}_keys.length - 1].name);",
    "  thisExp.addData({name} + '.rt', {label}_keys[{label}_keys.length - 1].rt);",
    "  if ({store_correct}) \x7b\x7b",
    "    thisExp.addData({name} + '.corr', Number({label}_keys[{label}_keys.length - 1].name === {correct_answer}));",
    "  \x7d\x7d",
    "\x7d\x7d",
    "thisExp.nextEntry();"]

/-- A digital output in the browser, where it can only be recorded. -/
def browserGpio : String := lines
  ["// Node: {display_label} ({node_type})",
    "// The browser cannot drive GPIO lines; the trigger is recorded for the device bridge.",
    "const {label} = \x7b\x7b pin: {pin}, state: {state} \x7d\x7d;",
    "thisExp.addData({name} + '.pin', {label}.pin);",
    "thisExp.addData({name} + '.state', {label}.state);",
    "if ({duration} > 0) \x7b\x7b",
    "  await sleep({duration});",
    "  thisExp.addData({name} + '.reset', globalClock.getTime());",
    "\x7d\x7d"]

/-- The templates of a target by the stems of their names. -/
def stems : Target → List (String × String)
  | .desktop =>
    [("experiment", desktopExperiment),
      ("components/text", desktopText),
      ("components/image", desktopImage),
      ("components/keyboard", desktopKeyboard),
      ("components/gpio", desktopGpio)]
  | .browser =>
    [("experiment", browserExperiment),
      ("components/text", browserText),
      ("components/image", browserImage),
      ("components/keyboard", browserKeyboard),
      ("components/gpio", browserGpio)]

def sources (target : Target) : List (String × String) :=
  (stems target).map fun p => (target.templateName p.1, p.2)

end Embedded

end Template

end FlowScript
